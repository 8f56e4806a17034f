import StepCheck.Proofs.Yaml.Blocks
import StepCheck.Yaml.Reader

/-!
# From tokens to nodes

The tokens of a datum are put together to a node, and the value of that node is the datum as it is
read back. No node of a document has a name or a tag, so a reader of nodes only looks at the next
token. Each call of a reader has a depth, and every token pays for the calls that pass it.

* `Token.isBare` — tokens with which nodes without name and tag begin;
* `run_node`, `run_entries_cons`, `run_flushItems_cons` — single steps of the readers;
* `ValueReads`, `RecordReads` — what is shown by induction over a datum;
* `exists_ofTokens` — the node of a document.
-/

namespace StepCheck.Yaml

open NodeReader

variable {t : Token} {ts : List Token} {anchors : List (Text × Node)} {handles : List (Text × Text)}

/-- Tokens with which a node without name and tag begins. -/
def Token.isBare : Token → Bool
  | .alias _ | .anchor _ | .tag .. | .stop _ => false
  | _ => true

/-- **One reading after another**, the first of which comes to its end. -/
theorem run_bind {α β : Type} {m : Reading α} {f : α → Reading β} {r r' : NodeReader} {a : α}
    (h : m.run r = .ok (a, r')) : (m >>= f).run r = (f a).run r' := by
  rw [StateT.run_bind, h]
  rfl

/-- A bare token at the front is looked at. -/
theorem run_peek (ht : t.isBare = true) :
    peek.run ⟨t :: ts, anchors, handles⟩ = .ok (t, ⟨t :: ts, anchors, handles⟩) := by
  cases t <;> first | rfl | exact absurd ht Bool.false_ne_true

/-- The token at the front is passed. -/
theorem run_pass : pass.run ⟨t :: ts, anchors, handles⟩ = .ok ((), ⟨ts, anchors, handles⟩) := rfl

/-- The token at the front is passed if it is the one that is asked for. -/
theorem run_passIf (ht : t.isBare = true) :
    (passIf t).run ⟨t :: ts, anchors, handles⟩ = .ok (true, ⟨ts, anchors, handles⟩) := by
  rw [passIf, run_bind (run_peek ht), if_pos rfl]
  rfl

/-- A token at the front that is not asked for is left there. -/
theorem run_passIf_of_ne {t' : Token} (ht : t.isBare = true) (hne : t ≠ t') :
    (passIf t').run ⟨t :: ts, anchors, handles⟩ = .ok (false, ⟨t :: ts, anchors, handles⟩) := by
  rw [passIf, run_bind (run_peek ht), if_neg hne]
  rfl

/-- A token that has to be there is passed. -/
theorem run_expect (ht : t.isBare = true) :
    (expect t).run ⟨t :: ts, anchors, handles⟩ = .ok ((), ⟨ts, anchors, handles⟩) := by
  rw [expect, run_bind (run_passIf ht)]
  rfl

/-- A node is absent just if the token is one of those that end it. -/
theorem run_isAbsentBefore (ht : t.isBare = true) (ends : List Token) :
    (isAbsentBefore ends).run ⟨t :: ts, anchors, handles⟩
      = .ok (ends.contains t, ⟨t :: ts, anchors, handles⟩) := by
  rw [isAbsentBefore, run_bind (run_peek ht)]
  rfl

/-- There are no properties before a bare token. -/
theorem run_properties (ht : t.isBare = true) :
    properties.run ⟨t :: ts, anchors, handles⟩
      = .ok (⟨none, none⟩, ⟨t :: ts, anchors, handles⟩) := by
  rw [properties, run_bind (run_peek ht)]
  split
  · exact absurd ht Bool.false_ne_true
  · exact absurd ht Bool.false_ne_true
  · rfl

/-- A node that begins with a bare token is its content. -/
theorem run_node (ht : t.isBare = true) (depth : Nat) (place : Place) :
    (node (depth + 1) place).run ⟨t :: ts, anchors, handles⟩
      = (content depth place none none).run ⟨t :: ts, anchors, handles⟩ := by
  rw [node, run_bind (run_peek ht)]
  split
  · exact absurd ht Bool.false_ne_true
  · rw [run_bind (run_properties ht)]
    have htag : (fullTag none).run ⟨t :: ts, anchors, handles⟩
        = .ok (none, ⟨t :: ts, anchors, handles⟩) := rfl
    rw [run_bind htag]
    change (content depth place none none >>= fun n => name none n >>= fun _ => pure n).run _ = _
    rw [StateT.run_bind]
    cases (content depth place none none).run ⟨t :: ts, anchors, handles⟩ <;> rfl

/-! ### Contents -/

/-- The content of a scalar has the tag that its text resolves to. -/
theorem run_content_scalar (depth : Nat) (place : Place) (isPlain : Bool) (v : Text) :
    (content (depth + 1) place none none).run ⟨.scalar isPlain v :: ts, anchors, handles⟩
      = .ok (.scalar (scalarTag none isPlain v) v, ⟨ts, anchors, handles⟩) := by
  rw [content, run_bind (run_peek rfl)]
  rfl

/-- The content of two brackets is the empty sequence. -/
theorem run_content_brackets (depth : Nat) (place : Place) :
    (content (depth + 2) place none none).run
        ⟨.openBracket :: .closeBracket :: ts, anchors, handles⟩
      = .ok (.sequence .sequence [], ⟨ts, anchors, handles⟩) := by
  rw [content, run_bind (run_peek rfl)]
  dsimp only
  rw [run_bind run_pass]
  rfl

/-- The content of hyphens below a key is the sequence of their items. -/
theorem run_content_entry (depth : Nat) {place : Place} (hplace : place.flush = true)
    {ns : List Node} {r : NodeReader}
    (h : (flushItems depth).run ⟨.entry :: ts, anchors, handles⟩ = .ok (ns, r)) :
    (content (depth + 1) place none none).run ⟨.entry :: ts, anchors, handles⟩
      = .ok (.sequence .sequence ns, r) := by
  rw [content, run_bind (run_peek rfl)]
  dsimp only
  rw [if_pos hplace]
  change (flushItems depth >>= fun ns => pure (Node.sequence .sequence ns)).run _ = _
  rw [run_bind h]
  rfl

/-- The content of a block of entries is the mapping of them. -/
theorem run_content_mappingStart (depth : Nat) {place : Place} (hplace : place.block = true)
    {es : List (Node × Node)} {r : NodeReader}
    (h : (entries depth).run ⟨ts, anchors, handles⟩ = .ok (es, r)) :
    (content (depth + 1) place none none).run ⟨.mappingStart :: ts, anchors, handles⟩
      = .ok (.mapping .mapping es, r) := by
  rw [content, run_bind (run_peek rfl)]
  dsimp only
  rw [if_neg (by simp), if_pos ⟨rfl, hplace⟩, run_bind run_pass]
  change (entries depth >>= fun es => pure (Node.mapping .mapping es)).run _ = _
  rw [run_bind h]
  rfl

/-- A key or a value that is there is read as a node. -/
theorem run_part (ht : t.isBare = true) (hends : t ∉ [Token.key, .colon, .blockEnd]) (depth : Nat) :
    (part (depth + 1)).run ⟨t :: ts, anchors, handles⟩
      = (node depth ⟨true, true⟩).run ⟨t :: ts, anchors, handles⟩ := by
  rw [part, run_bind (run_isAbsentBefore ht _)]
  have hcontains : [Token.key, .colon, .blockEnd].contains t = false := by
    rw [Bool.eq_false_iff, Ne, List.contains_iff_mem]
    exact hends
  rw [hcontains]
  rfl

/-- The entries of a mapping are read one after the other. -/
theorem run_entries_cons {depth : Nat} {k : Text} {v : Node} {es : List (Node × Node)}
    {r r' : NodeReader} (ht : t.isBare = true) (hends : t ∉ [Token.key, .colon, .blockEnd])
    (hv : (node (depth + 2) ⟨true, true⟩).run ⟨t :: ts, anchors, handles⟩ = .ok (v, r))
    (hes : (entries (depth + 3)).run r = .ok (es, r')) :
    (entries (depth + 4)).run ⟨.key :: .scalar true k :: .colon :: t :: ts, anchors, handles⟩
      = .ok ((.scalar (scalarTag none true k) k, v) :: es, r') := by
  have hk : (part (depth + 3)).run ⟨.scalar true k :: .colon :: t :: ts, anchors, handles⟩
      = .ok (.scalar (scalarTag none true k) k, ⟨.colon :: t :: ts, anchors, handles⟩) := by
    rw [run_part rfl (by simp), run_node rfl, run_content_scalar]
  rw [entries, run_bind (run_passIf rfl), if_pos rfl, run_bind hk, run_bind (run_passIf rfl),
    if_pos rfl]
  rw [← run_part ht hends] at hv
  rw [run_bind hv, run_bind hes]
  rfl

/-- A block without further entries is left. -/
theorem run_entries_nil (depth : Nat) :
    (entries (depth + 1)).run ⟨.blockEnd :: ts, anchors, handles⟩
      = .ok ([], ⟨ts, anchors, handles⟩) := by
  rw [entries, run_bind (run_passIf_of_ne rfl (by simp)), if_neg Bool.false_ne_true,
    run_bind (run_expect rfl)]
  rfl

/-- The items of a sequence are read one after the other. -/
theorem run_flushItems_cons {depth : Nat} {n : Node} {ns : List Node} {r r' : NodeReader}
    (ht : t.isBare = true) (hends : t ∉ [Token.entry, .key, .colon, .blockEnd])
    (hn : (node depth ⟨true, false⟩).run ⟨t :: ts, anchors, handles⟩ = .ok (n, r))
    (hns : (flushItems depth).run r = .ok (ns, r')) :
    (flushItems (depth + 1)).run ⟨.entry :: t :: ts, anchors, handles⟩ = .ok (n :: ns, r') := by
  have hcontains : [Token.entry, .key, .colon, .blockEnd].contains t = false := by
    rw [Bool.eq_false_iff, Ne, List.contains_iff_mem]
    exact hends
  rw [flushItems, run_bind (run_passIf rfl), if_pos rfl, run_bind (run_isAbsentBefore ht _),
    hcontains, if_neg Bool.false_ne_true, run_bind hn, run_bind hns]
  rfl

/-- A sequence without further hyphens is left at the token behind it. -/
theorem run_flushItems_nil (ht : t.isBare = true) (hne : t ≠ .entry) (depth : Nat) :
    (flushItems (depth + 1)).run ⟨t :: ts, anchors, handles⟩
      = .ok ([], ⟨t :: ts, anchors, handles⟩) := by
  rw [flushItems, run_bind (run_passIf_of_ne ht hne), if_neg Bool.false_ne_true]
  rfl

/-! ### The node of a datum -/

open Scalar (readBack)

/-- **A value is read**: its tokens make up a node that stands for the datum, and what follows is
left as it was. An item flush with the key would be taken for a part of the value. -/
def ValueReads (d : Datum) : Prop :=
  ∃ n : Node, n.valueAs n.tag = .ok (d.reread readBack) ∧
    ∀ ⦃depth : Nat⦄ ⦃t : Token⦄ ⦃ts : List Token⦄ ⦃anchors : List (Text × Node)⦄
      ⦃handles : List (Text × Text)⦄, 4 * (tokens d).length + 3 ≤ depth → t.isBare = true →
      t ≠ .entry → (node depth ⟨true, true⟩).run ⟨tokens d ++ t :: ts, anchors, handles⟩
        = .ok (n, ⟨t :: ts, anchors, handles⟩)

/-- **A record is read** wherever a block may stand. -/
def RecordReads (es : List (Datum × Datum)) : Prop :=
  ∃ n : Node, n.valueAs n.tag = .ok ((Datum.record es).reread readBack) ∧
    ∀ ⦃depth : Nat⦄ ⦃place : Place⦄ ⦃ts : List Token⦄ ⦃anchors : List (Text × Node)⦄
      ⦃handles : List (Text × Text)⦄, place.block = true →
      4 * (tokens (.record es)).length + 3 ≤ depth →
      (node depth place).run ⟨tokens (.record es) ++ ts, anchors, handles⟩
        = .ok (n, ⟨ts, anchors, handles⟩)

/-- The first token of a datum can begin a node. -/
private theorem tokens_eq_cons (d : Datum) : ∃ t ts, tokens d = t :: ts ∧ t.isBare = true
    ∧ t ∉ [Token.key, .colon, .blockEnd] := by
  have hscalar : ∀ d, ∃ p v, scalarToken d = .scalar p v := by
    intro d
    rcases d with _ | b | _ | _ | _ | _ | _ | _ | _ | _ | _ | _
    case bool => cases b <;> exact ⟨_, _, rfl⟩
    all_goals exact ⟨_, _, rfl⟩
  -- most data are one scalar each
  have hsingle : tokens d = [scalarToken d] → ∃ t ts, tokens d = t :: ts ∧ t.isBare = true
      ∧ t ∉ [Token.key, .colon, .blockEnd] := by
    intro h
    obtain ⟨p, v, hv⟩ := hscalar d
    exact ⟨_, _, h.trans (by rw [hv]), rfl, by simp⟩
  rcases d with _ | _ | _ | _ | _ | _ | _ | _ | xs | _ | _ | es
  case list =>
    cases xs with
    | nil => exact ⟨.openBracket, _, rfl, rfl, by simp⟩
    | cons x xs => exact ⟨.entry, _, rfl, rfl, by simp⟩
  case record => exact ⟨.mappingStart, _, rfl, rfl, by simp⟩
  all_goals exact hsingle rfl

/-! ### Scalars -/

/-- A datum that is one scalar is read, given that the tag of the scalar tells its kind. -/
private theorem valueReads_scalar {d : Datum} {isPlain : Bool} {v : Text}
    (htokens : tokens d = [.scalar isPlain v])
    (hv : (Node.scalar (scalarTag none isPlain v) v).valueAs (scalarTag none isPlain v)
      = .ok (d.reread readBack)) : ValueReads d := by
  refine ⟨.scalar _ v, hv, fun depth t ts anchors handles hdepth ht hentry => ?_⟩
  rw [htokens] at hdepth ⊢
  obtain ⟨depth, rfl⟩ := Nat.exists_eq_add_of_le' (show 2 ≤ depth from by simp at hdepth; omega)
  exact (run_node rfl _ _).trans (run_content_scalar ..)

/-- Whole numbers are read. -/
private theorem valueReads_int {i : Int} (hi : i.natAbs < 10 ^ Numeral.mostDigits) :
    ValueReads (.int i) := by
  refine valueReads_scalar rfl ?_
  have htag : scalarTag none true (Text.ofInt i) = .plain .integer := by
    rw [scalarTag, kind_ofInt]
    rfl
  rw [htag, Node.valueAs, if_pos (by rfl), scalarValue, integer_ofInt hi]
  rfl

/-- Finite numbers are read if documents can hold them. -/
private theorem valueReads_real {x : Float} (hx : Binary64.isFinite x = true)
    (hexact : IsExact x) : ValueReads (.real x) := by
  unfold IsExact at hexact
  refine valueReads_scalar rfl ?_
  have htag : scalarTag none true (real x) = .plain .real := by
    rw [scalarTag, (isPointed_real hx).kind]
    rfl
  rw [htag, Node.valueAs, if_pos (by rfl), scalarValue, hexact]
  rfl

/-- Texts are read as they come back. -/
private theorem valueReads_text (t : Text) : ValueReads (.text t) := by
  refine valueReads_scalar rfl ?_
  have htag : scalarTag none (Style.of t = .plain) (readBack t) = .plain .text := by
    -- a text is written plainly only if it would not be taken for anything else
    by_cases hplain : Style.of t = .plain
    · have hkind : Plain.kind t = .text := by
        unfold Style.of at hplain
        split at hplain
        · next h => exact h.2
        · split at hplain <;> cases hplain
      have hread : readBack t = t := by
        rw [readBack, hplain]
      rw [hread, scalarTag, hkind]
      simp [hplain]
    · simp [scalarTag, hplain]
  change (Node.scalar (scalarTag none (Style.of t = .plain) (readBack t)) (readBack t)).valueAs
    (scalarTag none (Style.of t = .plain) (readBack t)) = _
  rw [htag]
  rfl

/-- The empty list is read. -/
private theorem valueReads_nil : ValueReads (.list []) := by
  refine ⟨.sequence .sequence [], rfl, fun depth t ts anchors handles hdepth ht hentry => ?_⟩
  obtain ⟨depth, rfl⟩ := Nat.exists_eq_add_of_le'
    (show 3 ≤ depth from by simp [tokens] at hdepth; omega)
  exact (run_node rfl _ _).trans (run_content_brackets ..)

/-! ### Records -/

/-- Entries under different keys make up a record as they are. -/
private theorem recordOf_eq_self (es : List (Datum × Datum)) (hkeys : ∀ e ∈ es, IsKey e.1)
    (hnodup : (es.map Prod.fst).Nodup) : recordOf es = es := by
  -- a new key goes behind those that are there
  have hput : ∀ (k v : Datum) (es : List (Datum × Datum)), IsKey k → (∀ e ∈ es, IsKey e.1) →
      k ∉ es.map Prod.fst → Datum.put k v es = es ++ [(k, v)] := by
    rintro k v es ⟨name, rfl, -⟩ hkeys hk
    refine Datum.put_eq_concat fun e he => ?_
    obtain ⟨name', hname', -⟩ := hkeys e he
    rw [hname', Datum.sameKey_text, decide_eq_false_iff_not]
    rintro rfl
    exact hk (hname' ▸ List.mem_map_of_mem he)
  -- by induction on the entries that are still to come, with those that are there generalised
  have hfold : ∀ (es before : List (Datum × Datum)), (∀ e ∈ before ++ es, IsKey e.1) →
      ((before ++ es).map Prod.fst).Nodup →
      es.foldl (fun es e => Datum.put e.1 e.2 es) before = before ++ es := by
    intro es
    induction es with
    | nil => intro before _ _; simp
    | cons e es ih =>
      intro before hkeys hnodup
      have hfresh : e.1 ∉ before.map Prod.fst := by
        rw [List.map_append, List.nodup_append] at hnodup
        exact fun h => hnodup.2.2 _ h _ (by simp) rfl
      have hbefore := hput e.1 e.2 before (hkeys e (by simp))
        (fun e he => hkeys e (List.mem_append_left _ he)) hfresh
      have hrest := ih (before ++ [(e.1, e.2)]) (by simpa using hkeys) (by simpa using hnodup)
      rw [List.append_assoc, List.singleton_append, ← hbefore] at hrest
      exact hrest
  exact hfold es [] hkeys hnodup

/-- Entries of a mapping that stand for entries of a record. -/
private theorem exists_entries {es : List (Datum × Datum)} (hkeys : ∀ e ∈ es, IsKey e.1)
    (hvalues : ∀ e ∈ es, ValueReads e.2) :
    ∃ ns, Node.entries ns = some ⟨[], es.map fun e => .ok (e.1, e.2.reread readBack)⟩ ∧
      ∀ ⦃depth : Nat⦄ ⦃ts : List Token⦄ ⦃anchors : List (Text × Node)⦄
        ⦃handles : List (Text × Text)⦄,
        4 * (es.flatMap fun e => entryTokens (e.1.shown, tokens e.2)).length + 1 ≤ depth →
        (entries depth).run
          ⟨(es.flatMap fun e => entryTokens (e.1.shown, tokens e.2)) ++ .blockEnd :: ts, anchors,
            handles⟩ = .ok (ns, ⟨ts, anchors, handles⟩) := by
  induction es with
  | nil =>
    refine ⟨[], rfl, fun depth ts anchors handles hdepth => ?_⟩
    obtain ⟨depth, rfl⟩ := Nat.exists_eq_add_of_le' (show 1 ≤ depth from by simpa using hdepth)
    exact run_entries_nil depth
  | cons e es ih =>
    obtain ⟨ns, hns, hrun⟩ := ih (fun e he => hkeys e (List.mem_cons_of_mem _ he))
      fun e he => hvalues e (List.mem_cons_of_mem _ he)
    obtain ⟨k, hk, -, hkind⟩ := hkeys e List.mem_cons_self
    obtain ⟨n, hn, hvalue⟩ := hvalues e List.mem_cons_self
    have hshown : e.1.shown = k := by rw [hk]; rfl
    have htag : scalarTag none true k = .plain .text := by rw [scalarTag, hkind]; rfl
    refine ⟨(.scalar (scalarTag none true k) k, n) :: ns, ?_,
      fun depth ts anchors handles hdepth => ?_⟩
    · rw [htag, Node.entries, if_neg (by simp [Node.tag]), hn, hns, List.map_cons, hk]
      rfl
    · obtain ⟨t, s, htokens, ht, hends⟩ := tokens_eq_cons e.2
      have hcons : ((e :: es).flatMap fun e => entryTokens (e.1.shown, tokens e.2))
          = .key :: .scalar true k :: .colon :: (t :: s)
            ++ es.flatMap fun e => entryTokens (e.1.shown, tokens e.2) := by
        rw [List.flatMap_cons, entryTokens, hshown, htokens]
      rw [hcons, List.length_append] at hdepth
      simp only [List.length_cons] at hdepth
      obtain ⟨depth, rfl⟩ := Nat.exists_eq_add_of_le' (show 4 ≤ depth by omega)
      -- what follows the value is the next key or the end of the block
      obtain ⟨t', s', hnext, ht', hentry⟩ : ∃ t' s',
          (es.flatMap fun e => entryTokens (e.1.shown, tokens e.2)) ++ .blockEnd :: ts = t' :: s'
            ∧ t'.isBare = true ∧ t' ≠ .entry := by
        cases es with
        | nil => exact ⟨_, _, rfl, rfl, by simp⟩
        | cons e' es => exact ⟨.key, _, rfl, rfl, by simp⟩
      have hlength : (tokens e.2).length = s.length + 1 := by rw [htokens, List.length_cons]
      have hv : (node (depth + 2) ⟨true, true⟩).run ⟨tokens e.2 ++ t' :: s', anchors, handles⟩
          = .ok (n, ⟨t' :: s', anchors, handles⟩) := hvalue (by omega) ht' hentry
      have hes : (entries (depth + 3)).run
          ⟨(es.flatMap fun e => entryTokens (e.1.shown, tokens e.2)) ++ .blockEnd :: ts, anchors,
            handles⟩ = .ok (ns, ⟨ts, anchors, handles⟩) := hrun (by omega)
      rw [htokens] at hv
      rw [hnext] at hes
      rw [hcons, List.append_assoc, hnext]
      exact run_entries_cons ht hends hv hes

/-- The entries of a record are read, in the order of their keys. -/
private theorem recordReads {es : List (Datum × Datum)} (hkeys : ∀ e ∈ es, IsKey e.1)
    (hnodup : (es.map Prod.fst).Nodup) (hvalues : ∀ e ∈ es, ValueReads e.2) : RecordReads es := by
  have hkeys' : ∀ e ∈ es.mergeSort Datum.keyOrder, IsKey e.1 :=
    fun e he => hkeys e (List.mem_mergeSort.mp he)
  have hnodup' : ((es.mergeSort Datum.keyOrder).map Prod.fst).Nodup :=
    ((List.mergeSort_perm es _).map Prod.fst).nodup_iff.mpr hnodup
  obtain ⟨ns, hns, hrun⟩ := exists_entries hkeys' fun e he => hvalues e (List.mem_mergeSort.mp he)
  refine ⟨.mapping .mapping ns, ?_, fun depth place ts anchors handles hplace hdepth => ?_⟩
  · have hrecord := recordOf_eq_self
      ((es.mergeSort Datum.keyOrder).map fun e => (e.1, e.2.reread readBack))
      (by
        intro e he
        obtain ⟨e', he', rfl⟩ := List.mem_map.mp he
        exact hkeys' e' he')
      (by rwa [List.map_map])
    -- no value fails, so that the record is made of all of them
    have hcontents : contents (some ⟨[], (es.mergeSort Datum.keyOrder).map fun e =>
        .ok (e.1, e.2.reread readBack)⟩)
          = .ok ((es.mergeSort Datum.keyOrder).map fun e => (e.1, e.2.reread readBack)) :=
      Valued.all_map_ok _ _
    rw [Node.tag, Node.valueAs, hns, hcontents, Datum.reread_record]
    exact congrArg (fun es => Except.ok (Datum.record es)) hrecord
  · have htokens : tokens (.record es) ++ ts = .mappingStart
        :: (((es.mergeSort Datum.keyOrder).flatMap fun e => entryTokens (e.1.shown, tokens e.2))
          ++ .blockEnd :: ts) := by
      rw [tokens_record]
      simp
    rw [tokens_record] at hdepth
    simp only [List.length_cons, List.length_append] at hdepth
    -- the steps that the reader is given are enough: two for the node, and the rest for the entries
    obtain ⟨depth, rfl⟩ := Nat.exists_eq_add_of_le' (show 2 ≤ depth by omega)
    rw [htokens]
    exact (run_node rfl _ _).trans (run_content_mappingStart depth hplace (hrun (by omega)))

/-- A record is read wherever a value may stand. -/
private theorem RecordReads.valueReads {es : List (Datum × Datum)} (h : RecordReads es) :
    ValueReads (.record es) := by
  obtain ⟨n, hn, hrun⟩ := h
  exact ⟨n, hn, fun depth t ts anchors handles hdepth _ _ => hrun rfl hdepth⟩

/-! ### Lists -/

/-- Items of a sequence that stand for the items of a list. -/
private theorem exists_items {xs : List Datum}
    (hxs : ∀ x ∈ xs, ∃ es, x = .record es ∧ RecordReads es) :
    ∃ ns, Node.values ns = .ok (xs.map (Datum.reread readBack)) ∧
      ∀ ⦃depth : Nat⦄ ⦃t : Token⦄ ⦃ts : List Token⦄ ⦃anchors : List (Text × Node)⦄
        ⦃handles : List (Text × Text)⦄, 4 * (itemTokens xs).length + 1 ≤ depth → t.isBare = true →
        t ≠ .entry → (flushItems depth).run ⟨itemTokens xs ++ t :: ts, anchors, handles⟩
          = .ok (ns, ⟨t :: ts, anchors, handles⟩) := by
  induction xs with
  | nil =>
    refine ⟨[], rfl, fun depth t ts anchors handles hdepth ht hentry => ?_⟩
    obtain ⟨depth, rfl⟩ := Nat.exists_eq_add_of_le' (show 1 ≤ depth by omega)
    exact run_flushItems_nil ht hentry depth
  | cons x xs ih =>
    obtain ⟨ns, hns, hrun⟩ := ih fun y hy => hxs y (List.mem_cons_of_mem _ hy)
    obtain ⟨es, rfl, n, hn, hrecord⟩ := hxs x List.mem_cons_self
    refine ⟨n :: ns, ?_, fun depth t ts anchors handles hdepth ht hentry => ?_⟩
    · rw [Node.values, hn, hns]
      rfl
    · have hcons : itemTokens (.record es :: xs) ++ t :: ts
          = .entry :: (tokens (.record es) ++ (itemTokens xs ++ t :: ts)) := by
        simp [itemTokens]
      simp only [itemTokens, List.length_cons, List.cons_append, List.length_append] at hdepth
      obtain ⟨depth, rfl⟩ := Nat.exists_eq_add_of_le' (show 1 ≤ depth by omega)
      -- the item behind the hyphen, and then the items behind it
      have hitem : (node depth ⟨true, false⟩).run
          ⟨tokens (.record es) ++ (itemTokens xs ++ t :: ts), anchors, handles⟩
          = .ok (n, ⟨itemTokens xs ++ t :: ts, anchors, handles⟩) := hrecord rfl (by omega)
      have hitems : (flushItems depth).run ⟨itemTokens xs ++ t :: ts, anchors, handles⟩
          = .ok (ns, ⟨t :: ts, anchors, handles⟩) := hrun (by omega) ht hentry
      rw [tokens_record, List.cons_append, List.cons_append] at hitem
      rw [hcons, tokens_record, List.cons_append, List.cons_append]
      exact run_flushItems_cons rfl (by simp) hitem hitems

private theorem valueReads_list {xs : List Datum} (hne : xs ≠ [])
    (hxs : ∀ x ∈ xs, ∃ es, x = .record es ∧ RecordReads es) : ValueReads (.list xs) := by
  obtain ⟨ns, hns, hrun⟩ := exists_items hxs
  obtain ⟨x, xs, rfl⟩ := List.exists_cons_of_ne_nil hne
  refine ⟨.sequence .sequence ns, ?_, fun depth t ts anchors handles hdepth ht hentry => ?_⟩
  · rw [Node.tag, Node.valueAs, hns, Datum.reread_list]
    rfl
  · have hitems : tokens (.list (x :: xs)) = itemTokens (x :: xs) := rfl
    rw [hitems] at hdepth ⊢
    obtain ⟨depth, rfl⟩ := Nat.exists_eq_add_of_le' (show 2 ≤ depth by omega)
    have hns : (flushItems depth).run ⟨itemTokens (x :: xs) ++ t :: ts, anchors, handles⟩
        = .ok (ns, ⟨t :: ts, anchors, handles⟩) := hrun (by omega) ht hentry
    exact (run_node rfl _ _).trans (run_content_entry depth rfl hns)

/-! ### Documents -/

/-- **Exportable data are read**, and records below hyphens as well as behind keys. -/
private theorem Exportable.reads {j : Nat} {d : Datum} (h : Exportable j d) :
    ValueReads d ∧ ∀ es, d = .record es → RecordReads es := by
  -- on the datum; the items of a list are records, and for them more is needed than for a value
  induction h with
  | null => exact ⟨valueReads_scalar rfl rfl, fun _ h => by cases h⟩
  | bool b =>
    refine ⟨?_, fun _ h => by cases h⟩
    cases b <;> exact valueReads_scalar rfl rfl
  | int hi => exact ⟨valueReads_int hi, fun _ h => by cases h⟩
  | real hx hread => exact ⟨valueReads_real hx hread, fun _ h => by cases h⟩
  | infinity => exact ⟨valueReads_scalar rfl rfl, fun _ h => by cases h⟩
  | text t => exact ⟨valueReads_text t, fun _ h => by cases h⟩
  | nil => exact ⟨valueReads_nil, fun _ h => by cases h⟩
  | list hne hrecords _ ih =>
    refine ⟨valueReads_list hne fun x hx => ?_, fun _ h => by cases h⟩
    obtain ⟨es, hes⟩ := hrecords x hx
    exact ⟨es, hes, (ih x hx).2 es hes⟩
  | record hne hkeys hnodup _ ih =>
    have hrecord := recordReads hkeys hnodup fun e he => (ih e he).1
    refine ⟨hrecord.valueReads, ?_⟩
    rintro _ ⟨⟩
    exact hrecord

/-- **The tokens of a document make up a node that stands for its datum.** -/
theorem exists_ofTokens {es : List (Datum × Datum)} (h : ExportableRecord es) :
    ∃ n : Node, Node.ofTokens (tokens (.record es) ++ [.streamEnd]) = .ok (some n)
      ∧ n.value = .ok ((Datum.record es).reread readBack) := by
  obtain ⟨n, hn, hrun⟩ := recordReads h.keys h.nodup fun e he => (h.values e he).reads.1
  refine ⟨n, ?_, by rw [Node.value, hn]⟩
  -- the whole document is one node, and the reader is given steps in proportion to its tokens
  have hnode : (node (4 * (tokens (.record es) ++ [Token.streamEnd]).length + 4) ⟨true, false⟩).run
      ⟨tokens (.record es) ++ [.streamEnd], [], standardHandles⟩
      = .ok (n, ⟨[.streamEnd], [], standardHandles⟩) :=
    hrun rfl (by rw [List.length_append]; omega)
  rw [Node.ofTokens, stream]
  generalize 4 * (tokens (.record es) ++ [Token.streamEnd]).length + 4 = depth at hnode ⊢
  have htokens : ∃ ts, tokens (.record es) ++ [.streamEnd] = Token.mappingStart :: ts :=
    ⟨_, rfl⟩
  obtain ⟨ts, hts⟩ := htokens
  rw [hts] at hnode ⊢
  rw [run_bind (run_peek rfl)]
  dsimp only
  rw [run_bind hnode]
  rfl

end StepCheck.Yaml
