import StepCheck.Console.Terminal
import StepCheck.Proofs.Console.Escape
import StepCheck.Proofs.Datum.Answers
import StepCheck.Proofs.Text.Numeral
import StepCheck.Utf8.Encode

/-!
# Texts that every terminal prints

What the program prints is put together from plain text of its own, from texts that come from
elsewhere and are escaped, and from parts in one of a few styles. A terminal can be expected to
print such a text if there are bytes for its code points. Nothing else is asked of a terminal here;
what it makes of other texts, of tags in the names of files above all, is left to it.

The plain terminal meets this. A style that is opened is closed again, and an escaped text before
the closing tag may turn that tag into text, which leaves the style open but closes no other one. So
the styles that are open before a text are open behind it, below those that it leaves open itself
(`Markup.Settles`), and this carries over from the parts of a text to the whole.

* `Text.IsWritable` — texts without surrogates;
* `Markup.Proper`, `Table.Proper`, `Grid.Proper` — texts that are put together like this, and tables
  and grids of them;
* `Terminal.Sound` — terminals that print these;
* `Text.isPlain_ofNat`, `Text.isPlain_ofInt` — numerals are plain texts;
* `Terminal.sound_plain`, `Terminal.sound_utf8` — plain terminals are sound.
-/

namespace StepCheck

/-- **Texts that can be written**: no encoding form has bytes for surrogates. -/
def Text.IsWritable (t : Text) : Prop := ∀ c ∈ t, c.isSurrogate = false

instance (t : Text) : Decidable t.IsWritable :=
  inferInstanceAs (Decidable (∀ c ∈ t, c.isSurrogate = false))

/-- Texts that can be written can be written one after the other. -/
theorem Text.IsWritable.append {s t : Text} (hs : s.IsWritable) (ht : t.IsWritable) :
    Text.IsWritable (s ++ t) :=
  List.forall_mem_append.mpr ⟨hs, ht⟩

namespace Markup

variable {s t after : Text}

theorem IsPlain.isWritable (h : IsPlain t) : t.IsWritable := fun c hc => (h c hc).2

/-- The styles in which the program prints. -/
def styles : List Text := ["red", "yellow", "green", "blue", "bold", "bold cyan"]

/-- **Texts that are put together properly**: plain texts, escaped ones, and texts in a style. -/
inductive Proper : Text → Prop
  | plain {t : Text} (ht : IsPlain t) : Proper t
  | escaped {t : Text} (ht : t.IsWritable) : Proper (escape t)
  /-- Plain text may stand before any other text. -/
  | before {s t : Text} (hs : IsPlain s) (ht : Proper t) : Proper (s ++ t)
  /-- A text in a style, and what is behind it. -/
  | styled (style : Text) {s t : Text} (hstyle : style ∈ styles) (hs : Proper s) (ht : Proper t) :
      Proper ("[" ++ style ++ "]" ++ s ++ "[/" ++ style ++ "]" ++ t)

end Markup

/-- A table is put together properly if its title and its cells are. -/
structure Table.Proper (t : Table) : Prop where
  title : Markup.Proper t.title
  cells : ∀ row ∈ t.rows, ∀ cell ∈ row, Markup.Proper cell

/-- A grid is put together properly if its cells are. -/
def Grid.Proper (g : Grid) : Prop := ∀ row ∈ g.rows, ∀ cell ∈ row, Markup.Proper cell

/-- **What is expected of a terminal**: it prints all that is put together properly. -/
structure Terminal.Sound (c : Terminal) : Prop where
  prints : ∀ {t : Text}, Markup.Proper t → c.Prints t
  exists_table : ∀ {t : Table}, t.Proper → ∃ ls, c.table t = .ok ls
  exists_grid : ∀ {g : Grid}, g.Proper → ∃ ls, c.grid g = .ok ls

namespace Markup

/-- A text in a style with nothing behind it. -/
theorem Proper.inStyle (style : Text) (hstyle : style ∈ styles) (hs : Proper s) :
    Proper ("[" ++ style ++ "]" ++ s ++ ("[/" ++ style ++ "]")) := by
  have h := Proper.styled style hstyle hs (.plain (by decide : IsPlain []))
  simpa only [List.append_nil, List.append_assoc] using h

/-! ### Styles behind a text -/

/-- **Tags that settle**: what is open before them is open behind them, below the styles that they
leave open. -/
def Settles (own : List Text) : Prop :=
  ∀ styles, ∃ extra, afterTags? styles own = some (extra ++ styles)

theorem Settles.nil : Settles [] := fun _ => ⟨[], rfl⟩

/-- Tags that settle do so one after the other. -/
theorem Settles.append {own own' : List Text} (h : Settles own) (h' : Settles own') :
    Settles (own ++ own') := by
  intro styles
  obtain ⟨extra, hextra⟩ := h styles
  obtain ⟨extra', hextra'⟩ := h' (extra ++ styles)
  refine ⟨extra' ++ extra, ?_⟩
  unfold afterTags? at hextra hextra' ⊢
  rw [List.foldlM_append, hextra, List.append_assoc]
  exact hextra'

/-- The last style of a name that is open is closed. -/
theorem exists_close? (style : Text) (extra styles : List Text) :
    ∃ extra', close? style (extra ++ style :: styles) = some (extra' ++ styles) := by
  induction extra with
  | nil => exact ⟨[], if_pos rfl⟩
  | cons other extra ih =>
    rw [List.cons_append, close?]
    split
    · next heq => exact ⟨extra ++ [other], by rw [heq, List.append_assoc, List.singleton_append]⟩
    · obtain ⟨extra', hextra'⟩ := ih
      exact ⟨other :: extra', by rw [hextra', Option.map_some, List.cons_append]⟩

section Styles

variable {style : Text}

/-- What holds of each of the styles holds of all of them. -/
theorem forall_mem_styles {P : Text → Prop} (hred : P "red") (hyellow : P "yellow")
    (hgreen : P "green") (hblue : P "blue") (hbold : P "bold") (hcyan : P "bold cyan") :
    ∀ style ∈ styles, P style := by
  simp only [styles, List.forall_mem_cons, List.not_mem_nil, false_imp_iff, implies_true, and_true]
  exact ⟨hred, hyellow, hgreen, hblue, hbold, hcyan⟩

/-- The tags that open and close a style are tags. -/
theorem isTag_of_mem_styles : ∀ style ∈ styles, IsTag style ∧ IsTag ("/" ++ style) := by
  apply forall_mem_styles <;>
    exact ⟨⟨_, _, rfl, by decide, by decide⟩, ⟨_, _, rfl, by decide, by decide⟩⟩

/-- A style that is opened is the last one open. -/
theorem afterTag?_open :
    ∀ style ∈ styles, ∀ open', afterTag? open' style = some (style :: open') := by
  apply forall_mem_styles <;> exact fun _ => rfl

/-- A style is closed by its name. -/
theorem afterTag?_slash :
    ∀ style ∈ styles, ∀ open', afterTag? open' ("/" ++ style) = close? style open' := by
  apply forall_mem_styles <;> exact fun _ => rfl

/-- A style is opened, something settles, and the style is closed or not. -/
theorem Settles.styled (hstyle : style ∈ styles) {own : List Text} (h : Settles own)
    {close : List Text} (hclose : close = [] ∨ close = ["/" ++ style]) :
    Settles (style :: own ++ close) := by
  intro open'
  obtain ⟨extra, hextra⟩ := h (style :: open')
  have hopen : afterTags? open' (style :: own) = some (extra ++ style :: open') := by
    unfold afterTags? at hextra ⊢
    rw [List.foldlM_cons, afterTag?_open style hstyle]
    exact hextra
  unfold afterTags? at hopen ⊢
  rw [List.foldlM_append, hopen]
  -- without a closing tag the style is one of those that are left open
  rcases hclose with rfl | rfl
  · exact ⟨extra ++ [style], by rw [List.append_assoc, List.singleton_append]; rfl⟩
  · obtain ⟨extra', hextra'⟩ := exists_close? style extra open'
    refine ⟨extra', ?_⟩
    change (afterTag? (extra ++ style :: open') ("/" ++ style) >>= fun open' => some open') = _
    rw [afterTag?_slash style hstyle, hextra']
    rfl

end Styles

/-- **A text that is put together properly** has tags that settle. Those behind it are left alone,
but for backslashes at its end. -/
theorem Proper.exists_tags (h : Proper t) (hafter : Opens after) :
    ∃ own k, Settles own ∧
      tags (t ++ after) = own ++ tags (List.replicate k backslash ++ after) := by
  induction h generalizing after with
  | plain ht => exact ⟨[], 0, .nil, tags_append ht after⟩
  | @escaped t =>
    obtain ⟨k, hk⟩ := exists_tags_escape hafter t
    exact ⟨[], k, .nil, hk⟩
  | @before s t hs _ ih =>
    obtain ⟨own, k, hown, htags⟩ := ih hafter
    exact ⟨own, k, hown, by rw [List.append_assoc, tags_append hs, htags]⟩
  | @styled style s t hstyle _ _ ihs iht =>
    obtain ⟨hopens, hcloses⟩ := isTag_of_mem_styles style hstyle
    have htext : "[" ++ style ++ "]" ++ s ++ "[/" ++ style ++ "]" ++ t ++ after
        = openBracket :: style ++ closeBracket ::
          (s ++ (openBracket :: ("/" ++ style) ++ closeBracket :: (t ++ after))) := by
      simp only [List.append_assoc]
      rfl
    obtain ⟨own, k, hown, hs⟩ := ihs (opens_tag ("/" ++ style) (t ++ after))
    obtain ⟨own', k', hown', ht⟩ := iht hafter
    -- backslashes behind the inner text may turn the closing tag into a text
    obtain ⟨close, hclose, htags⟩ : ∃ close : List Text, (close = [] ∨ close = ["/" ++ style]) ∧
        tags (s ++ (openBracket :: ("/" ++ style) ++ closeBracket :: (t ++ after)))
          = own ++ close ++ tags (t ++ after) := by
      rw [hs, tags_tag k hcloses]
      split
      · exact ⟨[], .inl rfl, by rw [List.append_nil]⟩
      · exact ⟨["/" ++ style], .inr rfl, by rw [List.append_assoc, List.singleton_append]⟩
    refine ⟨style :: own ++ close ++ own', k', (hown.styled hstyle hclose).append hown', ?_⟩
    rw [htext, tags_cons hopens, htags, ht]
    simp only [List.cons_append, List.append_assoc]

/-- A proper text can be shown. -/
theorem Proper.showable (h : Proper t) : Showable t := by
  have hnothing : Opens [] := nofun
  obtain ⟨own, k, hown, htags⟩ := h.exists_tags hnothing
  have hrest : tags (List.replicate k backslash ++ []) = [] := by
    refine tagsFrom_of_not_mem (fun hmem => ?_) 0
    rw [List.append_nil] at hmem
    exact absurd (List.eq_of_mem_replicate hmem) (by decide)
  obtain ⟨extra, hextra⟩ := hown []
  rw [hrest, List.append_nil, List.append_nil] at htags
  rw [showable_iff, htags, hextra]
  rfl

/-- A proper text can be written. -/
theorem Proper.isWritable (h : Proper t) : t.IsWritable := by
  induction h with
  | plain ht => exact ht.isWritable
  | escaped ht => exact forall_mem_escape rfl ht
  | before hs _ ih => exact hs.isWritable.append ih
  | @styled style s t hstyle _ _ ihs iht =>
    -- the names of the styles can be written
    have hwritable : ∀ style ∈ styles, Text.IsWritable ("[" ++ style ++ "]") ∧
        Text.IsWritable ("[/" ++ style ++ "]") := by decide
    obtain ⟨hopen, hclose⟩ := hwritable style hstyle
    have htext : "[" ++ style ++ "]" ++ s ++ "[/" ++ style ++ "]" ++ t
        = ("[" ++ style ++ "]") ++ (s ++ (("[/" ++ style ++ "]") ++ t)) := by
      simp only [List.append_assoc]
    rw [htext]
    exact hopen.append (ihs.append (hclose.append iht))

end Markup

/-! ### Numerals and replacements -/

namespace Text

open Markup

/-- Digits are plain. -/
theorem isPlain_of_isDigit {t : Text} (h : ∀ c ∈ t, c.isDigit = true) : IsPlain t := by
  intro c hc
  have hdigit := CodePoint.isDigit_iff.mp (h c hc)
  have hne : ∀ d : CodePoint, 0x39 < d.val → c ≠ d := by
    rintro d hd rfl
    omega
  refine ⟨⟨hne _ (by decide), hne _ (by decide)⟩, ?_⟩
  rw [CodePoint.isSurrogate, Bool.and_eq_false_iff, decide_eq_false_iff_not]
  exact .inl (by omega)

theorem isPlain_ofNat (n : Nat) : IsPlain (ofNat n) :=
  isPlain_of_isDigit fun _ => isDigit_of_mem_ofNat

/-- Numerals are plain, those with a sign as well. -/
theorem isPlain_ofInt (i : Int) : IsPlain (ofInt i) := by
  unfold ofInt
  split
  · exact IsPlain.append (by decide) (isPlain_ofNat _)
  · exact isPlain_ofNat _

theorem isPlain_replicate {c : CodePoint}
    (hc : (c ≠ backslash ∧ c ≠ openBracket) ∧ c.isSurrogate = false) (n : Nat) :
    IsPlain (List.replicate n c) :=
  fun _ hd => (List.eq_of_mem_replicate hd).symm ▸ hc

/-- Blanks before a plain text leave it plain. -/
theorem isPlain_padLeft {t : Text} (h : IsPlain t) (width : Nat) : IsPlain (t.padLeft width) :=
  (isPlain_replicate (by decide) _).append h

/-- **A text with surrogates replaced** can be written. -/
theorem isWritable_printable (t : Text) : t.printable.IsWritable := by
  intro c hc
  obtain ⟨d, -, rfl⟩ := List.mem_map.mp hc
  split
  · rfl
  · next h => exact Bool.eq_false_iff.mpr h

end Text

/-! ### Plain terminals -/

namespace Terminal

variable {writes : CodePoint → Bool} (hwrites : ∀ c, c.isSurrogate = false → writes c = true)

include hwrites

/-- What can be written is. -/
theorem written_eq_ok {α : Type} {shown : List Text} (h : ∀ t ∈ shown, t.IsWritable) (a : α) :
    written writes shown a = .ok a := by
  have hnone : shown.find? (·.any (!writes ·)) = none := by
    rw [List.find?_eq_none]
    intro t ht hany
    obtain ⟨c, hc, hunwritten⟩ := List.any_eq_true.mp hany
    rw [hwrites c (h t ht c hc)] at hunwritten
    cases hunwritten
  unfold written
  rw [hnone]

omit hwrites in
/-- What is seen of a proper text can be written. -/
theorem exists_shown {t : Text} (h : Markup.Proper t) :
    ∃ u, Markup.shown t = .ok u ∧ u.IsWritable := by
  obtain ⟨u, hu⟩ := h.showable
  exact ⟨u, hu, Markup.forall_mem_of_shown h.isWritable hu⟩

omit hwrites in
/-- What is seen of proper cells can be written. -/
theorem exists_shown_cells {rows : List (List Text)}
    (h : ∀ row ∈ rows, ∀ cell ∈ row, Markup.Proper cell) :
    ∃ shown, rows.mapM (fun row => row.mapM Markup.shown) = .ok shown ∧
      ∀ u ∈ shown.flatten, Text.IsWritable u := by
  obtain ⟨shown, hshown, hall⟩ := Except.exists_mapM fun row hrow =>
    Except.exists_mapM fun cell hcell => exists_shown (h row hrow cell hcell)
  refine ⟨shown, hshown, fun u hu => ?_⟩
  obtain ⟨row, hrow, hu⟩ := List.mem_flatten.mp hu
  exact hall row hrow u hu

/-- **A plain terminal** that writes all but surrogates prints what is put together properly. -/
theorem sound_plain : (plain writes).Sound where
  prints h := by
    obtain ⟨u, hu, hwritable⟩ := exists_shown h
    refine ⟨Console.linesOf u, ?_⟩
    change (do
      let u ← (Markup.shown _).mapError PrintFailure.markup
      written writes [u] (Console.linesOf u)) = _
    rw [hu]
    exact written_eq_ok hwrites (List.forall_mem_singleton.mpr hwritable) _
  exists_table {t} h := by
    obtain ⟨title, htitle, hwritable⟩ := exists_shown h.title
    obtain ⟨rows, hrows, hcells⟩ := exists_shown_cells h.cells
    -- the title and the cells are shown one by one, and each is written
    have hshown : t.shown = .ok (title, rows) := by
      unfold Table.shown
      rw [htitle, hrows]
      rfl
    refine ⟨t.laidOut title rows, ?_⟩
    change (t.shown.mapError PrintFailure.markup >>= fun p =>
      written writes (p.1 :: p.2.flatten) (t.laidOut p.1 p.2)) = _
    rw [hshown]
    exact written_eq_ok hwrites (List.forall_mem_cons.mpr ⟨hwritable, hcells⟩) _
  exists_grid {g} h := by
    obtain ⟨rows, hrows, hcells⟩ := exists_shown_cells h
    refine ⟨g.laidOut rows, ?_⟩
    change (do
      let rows ← g.shown.mapError PrintFailure.markup
      written writes rows.flatten (g.laidOut rows)) = _
    unfold Grid.shown
    rw [hrows]
    exact written_eq_ok hwrites hcells _

end Terminal

/-- **A plain terminal that writes UTF-8** prints what is put together properly. -/
theorem Terminal.sound_utf8 : Terminal.utf8.Sound :=
  sound_plain fun c hc => by rw [hc, Bool.not_false]

end StepCheck
