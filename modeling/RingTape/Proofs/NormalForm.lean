import Mathlib.Data.List.Chain
import RingTape.Proofs.TokenCells

/-!
# The normal form of a program text

Normalising a text makes each run of separators one space.  Which texts it makes equal is
said without it by `Respaced`: a text is respaced when each of its maximal runs becomes
some other run, and nothing else changes.

A text is respaced by normalising it (`respaced_collapse`), and respacing a text does not
change its normal form (`Respaced.collapse_eq`); so the normal form is one text out of
those that a text can be respaced to, and what respacing keeps is kept by it.  Conversely
the pieces of a normal form can be told apart by its spaces, so two texts with one normal
form have the same pieces between their runs (`respaced_of_collapse_eq`).
-/

namespace RingTape.Source

/-- **Respacing** a text: each maximal run of separators is replaced by some run of
separators, and everything else is kept. -/
inductive Respaced : List Char → List Char → Prop where
  /-- A text without separators stays as it is. -/
  | plain {piece : List Char} (hpiece : ∀ c ∈ piece, Text.isSeparator c = false) :
      Respaced piece piece
  /-- The whole run after a piece becomes another run, and what follows it is respaced. -/
  | run {piece run run' rest rest' : List Char}
      (hpiece : ∀ c ∈ piece, Text.isSeparator c = false)
      (hne : run ≠ []) (hrun : ∀ c ∈ run, Text.isSeparator c = true)
      (hne' : run' ≠ []) (hrun' : ∀ c ∈ run', Text.isSeparator c = true)
      (hmaximal : ∀ c, rest.head? = some c → Text.isSeparator c = false)
      (hrest : Respaced rest rest') :
      Respaced (piece ++ (run ++ rest)) (piece ++ (run' ++ rest'))

/-- No two spaces of a text are adjacent. -/
def SingleSpaced (text : List Char) : Prop :=
  text.IsChain fun c d => ¬(c = ' ' ∧ d = ' ')

/-- Whether a text starts with a run of separators. -/
def startsWithRun (text : List Char) : Bool :=
  text.head?.any Text.isSeparator

/-- Whether a text ends with a run of separators. -/
def endsWithRun (text : List Char) : Bool :=
  text.getLast?.any Text.isSeparator

variable {s t : List Char}

/-! ## Respacing -/

theorem startsWithRun_eq_false_iff :
    startsWithRun s = false ↔ ∀ c, s.head? = some c → Text.isSeparator c = false := by
  cases s <;> simp [startsWithRun]

theorem startsWithRun_piece_append {piece : List Char} (hne : piece ≠ []) (rest : List Char) :
    startsWithRun (piece ++ rest) = startsWithRun piece := by
  obtain ⟨c, piece, rfl⟩ := List.exists_cons_of_ne_nil hne
  rfl

theorem startsWithRun_of_run {run : List Char} (hne : run ≠ [])
    (hrun : ∀ c ∈ run, Text.isSeparator c = true) (rest : List Char) :
    startsWithRun (run ++ rest) = true := by
  obtain ⟨c, run, rfl⟩ := List.exists_cons_of_ne_nil hne
  exact hrun c List.mem_cons_self

/-- A run at the start stays there, and none comes there. -/
theorem Respaced.startsWithRun_eq (h : Respaced s t) : startsWithRun s = startsWithRun t := by
  cases h with
  | plain => rfl
  | @run piece run run' rest rest' _ hne hrun hne' hrun' _ _ =>
    -- without a piece before it the first run is at the start of both texts
    by_cases hpiece : piece = []
    · subst hpiece
      rw [List.nil_append, List.nil_append, startsWithRun_of_run hne hrun,
        startsWithRun_of_run hne' hrun']
    · rw [startsWithRun_piece_append hpiece, startsWithRun_piece_append hpiece]

theorem endsWithRun_append {rest : List Char} (hne : rest ≠ []) (front : List Char) :
    endsWithRun (front ++ rest) = endsWithRun rest := by
  rw [endsWithRun, endsWithRun, List.getLast?_append_of_ne_nil front hne]

theorem endsWithRun_of_run {run : List Char} (hne : run ≠ [])
    (hrun : ∀ c ∈ run, Text.isSeparator c = true) : endsWithRun run = true := by
  rw [endsWithRun, List.getLast?_eq_some_getLast hne]
  exact hrun _ (List.getLast_mem hne)

theorem Respaced.eq_nil_iff (h : Respaced s t) : s = [] ↔ t = [] := by
  cases h with
  | plain => rfl
  | run _ hne _ hne' _ _ _ => simp [hne, hne']

/-- A run at the end stays there, and none comes there. -/
theorem Respaced.endsWithRun_eq (h : Respaced s t) : endsWithRun s = endsWithRun t := by
  induction h with
  | plain => rfl
  | @run piece run run' rest rest' _ hne hrun hne' hrun' _ hrest ih =>
    by_cases hend : rest = []
    · have hend' : rest' = [] := hrest.eq_nil_iff.mp hend
      rw [hend, hend', List.append_nil, List.append_nil, endsWithRun_append hne,
        endsWithRun_append hne', endsWithRun_of_run hne hrun, endsWithRun_of_run hne' hrun']
    · have hend' : rest' ≠ [] := fun hnil => hend (hrest.eq_nil_iff.mpr hnil)
      rw [← List.append_assoc, ← List.append_assoc, endsWithRun_append hend,
        endsWithRun_append hend', ih]

theorem filter_of_run {run : List Char} (hrun : ∀ c ∈ run, Text.isSeparator c = true) :
    run.filter (fun c => !Text.isSeparator c) = [] := by
  rw [List.filter_eq_nil_iff]
  intro c hc
  simp [hrun c hc]

/-- All that is not a separator is kept, in its order. -/
theorem Respaced.filter_eq (h : Respaced s t) :
    s.filter (fun c => !Text.isSeparator c) = t.filter fun c => !Text.isSeparator c := by
  induction h with
  | plain => rfl
  | run _ _ hrun _ hrun' _ _ ih =>
    rw [List.filter_append, List.filter_append, List.filter_append, List.filter_append,
      filter_of_run hrun, filter_of_run hrun', ih]

/-! ## Normalising is respacing -/

theorem space_separates : ∀ c ∈ [' '], Text.isSeparator c = true :=
  List.all_eq_true.mp rfl

theorem Cut.respaced_collapse {text : List Char} {pieces : List (List Char)}
    (h : Cut text pieces) : Respaced text (collapse text) := by
  induction h with
  | empty => exact .plain (by simp)
  | last _ hpiece =>
    rw [collapse_of_plain hpiece]
    exact .plain hpiece
  | more hpiece hne hrun hmaximal _ ih =>
    rw [collapse_of_run hpiece hne hrun hmaximal]
    exact .run hpiece hne hrun (List.cons_ne_nil ' ' []) space_separates hmaximal ih

/-- **The normal form is a respacing** of the text. -/
theorem respaced_collapse (text : List Char) : Respaced text (collapse text) :=
  (cut_tokens text).respaced_collapse

/-- **Respacing keeps the normal form.** -/
theorem Respaced.collapse_eq (h : Respaced s t) : collapse s = collapse t := by
  induction h with
  | plain => rfl
  | @run piece run run' rest rest' hpiece hne hrun hne' hrun' hmaximal hrest ih =>
    have hmaximal' : ∀ c, rest'.head? = some c → Text.isSeparator c = false := by
      rw [← startsWithRun_eq_false_iff] at hmaximal ⊢
      rw [← hrest.startsWithRun_eq, hmaximal]
    rw [collapse_of_run hpiece hne hrun hmaximal, collapse_of_run hpiece hne' hrun' hmaximal', ih]

theorem collapse_collapse (text : List Char) : collapse (collapse text) = collapse text :=
  (respaced_collapse text).collapse_eq.symm

/-! ## The shape of a normal form -/

theorem eq_space_of_mem_collapse {text : List Char} {c : Char} (hc : c ∈ collapse text)
    (hsep : Text.isSeparator c = true) : c = ' ' := by
  induction text with
  | nil => cases hc
  | cons d text ih =>
    by_cases hd : Text.isSeparator d = true
    · rw [collapse_cons_of_separator hd] at hc
      split at hc
      · exact ih hc
      · rcases List.mem_cons.mp hc with hspace | hrest
        · exact hspace
        · exact ih hrest
    · rw [collapse_cons_of_not_separator (by simpa using hd)] at hc
      rcases List.mem_cons.mp hc with rfl | hrest
      · exact absurd hsep hd
      · exact ih hrest

/-- **A normal form has no adjacent spaces.** -/
theorem singleSpaced_collapse (text : List Char) : SingleSpaced (collapse text) := by
  unfold SingleSpaced
  induction text with
  | nil => exact .nil
  | cons c text ih =>
    by_cases hc : Text.isSeparator c = true
    · rw [collapse_cons_of_separator hc]
      split
      · exact ih
      · rename_i hhead
        exact List.isChain_cons.mpr ⟨fun d hd hspaces => hhead (hspaces.2 ▸ hd), ih⟩
    · rw [collapse_cons_of_not_separator (by simpa using hc)]
      refine List.isChain_cons.mpr ⟨fun d _ hspaces => ?_, ih⟩
      rw [hspaces.1] at hc
      exact hc (by decide)

/-! ## Texts with one normal form -/

theorem space_not_mem_piece {piece : List Char}
    (hpiece : ∀ c ∈ piece, Text.isSeparator c = false) : ' ' ∉ piece := by
  intro hmem
  exact absurd (hpiece ' ' hmem) (by decide)

/-- What stands before the first space, and what after it, can be told from the whole. -/
theorem append_space_inj {piece piece' rest rest' : List Char} (hpiece : ' ' ∉ piece)
    (hpiece' : ' ' ∉ piece') (h : piece ++ ' ' :: rest = piece' ++ ' ' :: rest') :
    piece = piece' ∧ rest = rest' := by
  have hfront (front tail : List Char) (hspace : ' ' ∉ front) :
      (front ++ ' ' :: tail).takeWhile (fun c => c != ' ') = front := by
    have hall : ∀ c ∈ front, (c != ' ') = true := by
      intro c hc
      simpa using fun heq : c = ' ' => hspace (heq ▸ hc)
    rw [List.takeWhile_append_of_pos hall, List.takeWhile_cons_of_neg (by decide),
      List.append_nil]
  have hpieces : piece = piece' := by
    rw [← hfront piece rest hpiece, h, hfront piece' rest' hpiece']
  subst hpieces
  exact ⟨rfl, (List.cons.inj (List.append_cancel_left h)).2⟩

/-- A text is a single piece, or a piece, the whole run after it and what follows the run. -/
theorem Cut.plain_or_run {text : List Char} {pieces : List (List Char)} (h : Cut text pieces) :
    (∀ c ∈ text, Text.isSeparator c = false) ∨
      ∃ piece run rest, text = piece ++ (run ++ rest) ∧
        (∀ c ∈ piece, Text.isSeparator c = false) ∧
        run ≠ [] ∧ (∀ c ∈ run, Text.isSeparator c = true) ∧
        ∀ c, rest.head? = some c → Text.isSeparator c = false := by
  cases h with
  | empty => exact .inl (by simp)
  | last _ hpiece => exact .inl hpiece
  | more hpiece hne hrun hmaximal _ => exact .inr ⟨_, _, _, rfl, hpiece, hne, hrun, hmaximal⟩

/-- A text without separators is the normal form of no other text. -/
theorem eq_of_plain_eq_collapse (hs : ∀ c ∈ s, Text.isSeparator c = false) (h : s = collapse t) :
    s = t := by
  rcases (cut_tokens t).plain_or_run with ht | ⟨piece, run, rest, rfl, hpiece, hne, hrun, hmaximal⟩
  · rw [h, collapse_of_plain ht]
  · rw [collapse_of_run hpiece hne hrun hmaximal] at h
    exact absurd (h ▸ by simp) (space_not_mem_piece hs)

/-- The runs of `s` are matched one by one with those of `t`: the first space of their normal
form ends the first piece of both. -/
theorem Cut.respaced_of_collapse_eq {pieces : List (List Char)} (hs : Cut s pieces)
    (h : collapse s = collapse t) : Respaced s t := by
  induction hs generalizing t with
  | empty => exact eq_of_plain_eq_collapse (by simp) h ▸ .plain (by simp)
  | last _ hpiece =>
    rw [collapse_of_plain hpiece] at h
    exact eq_of_plain_eq_collapse hpiece h ▸ .plain hpiece
  | more hpiece hne hrun hmaximal _ ih =>
    rw [collapse_of_run hpiece hne hrun hmaximal] at h
    rcases (cut_tokens t).plain_or_run with
      ht | ⟨piece', run', rest', rfl, hpiece', hne', hrun', hmaximal'⟩
    · rw [collapse_of_plain ht] at h
      exact absurd (h ▸ by simp) (space_not_mem_piece ht)
    · rw [collapse_of_run hpiece' hne' hrun' hmaximal'] at h
      obtain ⟨rfl, hrests⟩ :=
        append_space_inj (space_not_mem_piece hpiece) (space_not_mem_piece hpiece') h
      exact .run hpiece hne hrun hne' hrun' hmaximal (ih hrests)

/-- **Texts with one normal form are respacings of each other.** -/
theorem collapse_eq_iff : collapse s = collapse t ↔ Respaced s t :=
  ⟨(cut_tokens s).respaced_of_collapse_eq, Respaced.collapse_eq⟩

theorem normalize_eq_iff {s t : String} :
    normalize s = normalize t ↔ collapse s.toList = collapse t.toList := by
  rw [normalize, normalize, String.ofList_inj]

/-- **The normal form of a program text is canonical.**  Normalising twice is normalising
once, and it does not change the image.  The characters of a text that are no separators
are those of its normal form, in the same order; the only separators there are spaces, and
no two of them are adjacent.  Two texts have the same normal form exactly if one arises
from the other by making each maximal run of separators some other run; then both start
with a run or neither does, and both end with one or neither does. -/
theorem normal_form_canonical (s t : String) :
    normalize (normalize s) = normalize s ∧
      encode (normalize s) = encode s ∧
      (normalize s).toList.filter (fun c => !Text.isSeparator c) =
        s.toList.filter (fun c => !Text.isSeparator c) ∧
      (∀ c ∈ (normalize s).toList, Text.isSeparator c = true → c = ' ') ∧
      SingleSpaced (normalize s).toList ∧
      (normalize s = normalize t ↔ Respaced s.toList t.toList) ∧
      (normalize s = normalize t →
        startsWithRun s.toList = startsWithRun t.toList ∧
          endsWithRun s.toList = endsWithRun t.toList) := by
  have hform : (normalize s).toList = collapse s.toList := String.toList_ofList
  have hsame : normalize s = normalize t ↔ Respaced s.toList t.toList :=
    normalize_eq_iff.trans collapse_eq_iff
  refine ⟨?_, ?_, ?_, ?_, ?_, hsame, ?_⟩
  · rw [normalize_eq_iff, hform, collapse_collapse]
  · rw [encode, encode, hform, collapse_collapse]
  · rw [hform, (respaced_collapse s.toList).filter_eq]
  · rw [hform]
    exact fun c hc hsep => eq_space_of_mem_collapse hc hsep
  · rw [hform]
    exact singleSpaced_collapse s.toList
  · intro heq
    have hrespaced := hsame.mp heq
    exact ⟨hrespaced.startsWithRun_eq, hrespaced.endsWithRun_eq⟩

/-- The runs at both ends become other runs, and the vertical tab is no separator; but a
run at the end is not the same as none. -/
theorem normal_form_canonical_ends :
    normalize "\t 1\x0b9\r\n" = normalize " 1\x0b9\x0c" ∧ normalize "19" ≠ normalize "19 " := by
  obtain ⟨-, -, -, -, -, hsame, -⟩ := normal_form_canonical "\t 1\x0b9\r\n" " 1\x0b9\x0c"
  obtain ⟨-, -, -, -, -, -, hends⟩ := normal_form_canonical "19" "19 "
  constructor
  · apply hsame.mpr
    have hplain : ∀ c ∈ ['1', '\x0b', '9'], Text.isSeparator c = false := by
      simp [Text.isSeparator]
    have hnone : ∀ c ∈ ([] : List Char), Text.isSeparator c = false := by simp
    have hlast : Respaced ['1', '\x0b', '9', '\r', '\n'] ['1', '\x0b', '9', '\x0c'] :=
      @Respaced.run ['1', '\x0b', '9'] ['\r', '\n'] ['\x0c'] [] [] hplain
        (List.cons_ne_nil _ _) (List.all_eq_true.mp rfl) (List.cons_ne_nil _ _)
        (List.all_eq_true.mp rfl) (startsWithRun_eq_false_iff.mp rfl) (.plain hnone)
    exact @Respaced.run [] ['\t', ' '] [' '] _ _ hnone (List.cons_ne_nil _ _)
      (List.all_eq_true.mp rfl) (List.cons_ne_nil _ _) space_separates
      (startsWithRun_eq_false_iff.mp rfl) hlast
  · intro heq
    exact absurd (hends heq).2 (by decide)

end RingTape.Source
