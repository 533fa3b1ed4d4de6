/-
Looking for the leftmost place of each piece loses no match.

A pattern falls into pieces at its stars, in one way only.  It stands for the texts in which its
pieces come one after the other with anything between, the first at the front and the last at the
end: `fill` makes these texts.

The search for a piece stops at the first place where the piece occurs, and is never taken back.
That costs nothing.  What follows the first place ends in what follows any other, so the pieces
that are still to come fit behind the first place if they fit behind another: the filling in front
of the next piece just gets longer.  This is `dropThrough?_leftmost`, and the rest is induction on
the pieces.  So the search agrees with `backtrack`, which tries everything that a star can stand
for.
-/
import IdentityStore.Proofs.Text.Split
import IdentityStore.Store.Glob
import Mathlib.Data.List.Infix

namespace IdentityStore

/-! ### Pieces -/

namespace Text

variable {mark : Char} {cs first : List Char} {others : List (List Char)}

/-- The text falls into these pieces at its marks: it is the pieces with a mark between each two,
and no piece has a mark. -/
structure FallsInto (mark : Char) (cs first : List Char) (others : List (List Char)) : Prop where
  joined : cs = joinPieces mark first others
  unmarked : ∀ piece ∈ first :: others, mark ∉ piece

/-- A text falls into pieces in one way. -/
theorem fallsInto_iff : FallsInto mark cs first others ↔ pieces mark cs = (first, others) := by
  constructor
  · intro h
    rw [h.joined, pieces_joinPieces h.unmarked]
  · intro h
    have hjoined := joinPieces_pieces mark cs
    have hunmarked := not_mem_of_mem_pieces mark cs
    rw [h] at hjoined hunmarked
    exact ⟨hjoined.symm, hunmarked⟩

end Text

namespace Glob

open Text (FallsInto joinPieces)

variable {pattern text front first piece rest : List Char} {others pieces : List (List Char)}

/-! ### One piece -/

theorem dropFront?_eq_some_iff : dropFront? piece text = some rest ↔ text = piece ++ rest := by
  unfold dropFront?
  by_cases h : piece <+: text
  · obtain ⟨after, rfl⟩ := h
    simp
  · rw [if_neg (by simpa using h)]
    constructor
    · intro hnone
      cases hnone
    · intro heq
      exact absurd ⟨rest, heq.symm⟩ h

/-- What is dropped ends in the piece. -/
theorem eq_of_dropThrough? (h : dropThrough? piece text = some rest) :
    ∃ before, text = before ++ (piece ++ rest) := by
  induction text with
  | nil => exact ⟨[], by rw [List.nil_append, ← dropFront?_eq_some_iff]; exact h⟩
  | cons c text ih =>
      rw [dropThrough?] at h
      rcases hfront : dropFront? piece (c :: text) with _ | after
      · rw [hfront] at h
        obtain ⟨before, hbefore⟩ := ih h
        exact ⟨c :: before, by rw [hbefore, List.cons_append]⟩
      · rw [hfront] at h
        cases h
        exact ⟨[], by rw [List.nil_append, ← dropFront?_eq_some_iff, hfront]⟩

/-- Where a piece is at the front, nothing but the piece is dropped. -/
theorem dropThrough?_of_front (h : dropFront? piece text = some rest) :
    dropThrough? piece text = some rest := by
  cases text with
  | nil => exact h
  | cons c text => rw [dropThrough?, h]

/-- **What follows the first place of a piece ends in what follows any other place.** -/
theorem dropThrough?_leftmost (before piece after : List Char) :
    ∃ skipped, dropThrough? piece (before ++ (piece ++ after)) = some (skipped ++ after) := by
  induction before with
  | nil => exact ⟨[], dropThrough?_of_front (dropFront?_eq_some_iff.mpr rfl)⟩
  | cons c before ih =>
      rcases hfront : dropFront? piece (c :: before ++ (piece ++ after)) with _ | rest
      · rw [List.cons_append] at hfront ⊢
        rw [dropThrough?, hfront]
        exact ih
      · -- The piece is at the front already, and what follows is longer than `after`.
        have heq := dropFront?_eq_some_iff.mp hfront
        have hlength := congrArg List.length heq
        have hafter : after <:+ piece ++ rest := heq ▸ ⟨c :: before ++ piece, by simp⟩
        have hsuffix : after <:+ rest := by
          refine List.suffix_of_suffix_length_le hafter (List.suffix_append piece rest) ?_
          simp only [List.length_append, List.length_cons] at hlength
          omega
        obtain ⟨skipped, rfl⟩ := hsuffix
        exact ⟨skipped, dropThrough?_of_front hfront⟩

/-! ### All pieces -/

/-- The text in which each piece comes behind its filling. -/
def fill (fillings pieces : List (List Char)) : List Char :=
  (List.zipWith (· ++ ·) fillings pieces).flatten

@[simp] theorem fill_nil : fill [] pieces = [] := rfl

@[simp] theorem fill_cons (filling : List Char) (fillings : List (List Char)) (piece : List Char)
    (pieces : List (List Char)) :
    fill (filling :: fillings) (piece :: pieces) = filling ++ (piece ++ fill fillings pieces) := by
  simp [fill]

/-- The text is made of the pieces with one filling in front of each. -/
def Filled (pieces : List (List Char)) (text : List Char) : Prop :=
  ∃ fillings : List (List Char), fillings.length = pieces.length ∧ text = fill fillings pieces

@[simp] theorem filled_nil : Filled [] text ↔ text = [] := by
  simp [Filled]

theorem filled_cons :
    Filled (piece :: pieces) text ↔
      ∃ filling rest, text = filling ++ (piece ++ rest) ∧ Filled pieces rest := by
  constructor
  · rintro ⟨fillings, hlength, htext⟩
    cases fillings with
    | nil => simp at hlength
    | cons filling fillings =>
        rw [fill_cons] at htext
        exact ⟨filling, fill fillings pieces, htext, fillings, by simpa using hlength, rfl⟩
  · rintro ⟨filling, rest, rfl, fillings, hlength, rfl⟩
    exact ⟨filling :: fillings, by simp [hlength], by rw [fill_cons]⟩

/-- A first filling may be longer. -/
theorem Filled.append (h : Filled pieces text) (hne : pieces ≠ []) (skipped : List Char) :
    Filled pieces (skipped ++ text) := by
  cases pieces with
  | nil => exact absurd rfl hne
  | cons piece pieces =>
      obtain ⟨filling, rest, rfl, hrest⟩ := filled_cons.mp h
      exact filled_cons.mpr ⟨skipped ++ filling, rest, by simp, hrest⟩

theorem matchPieces_of_found (hne : pieces ≠ []) (h : dropThrough? piece text = some rest) :
    matchPieces (piece :: pieces) text = matchPieces pieces rest := by
  cases pieces with
  | nil => exact absurd rfl hne
  | cons next pieces => simp [matchPieces, h]

theorem matchPieces_of_not_found (hne : pieces ≠ []) (h : dropThrough? piece text = none) :
    matchPieces (piece :: pieces) text = false := by
  cases pieces with
  | nil => exact absurd rfl hne
  | cons next pieces => simp [matchPieces, h]

/-- **The search finds the pieces** just if the text is made of them. -/
theorem matchPieces_iff : matchPieces pieces text = true ↔ Filled pieces text := by
  induction pieces generalizing text with
  | nil => simp [matchPieces]
  | cons piece pieces ih =>
      by_cases hlast : pieces = []
      · subst hlast
        simp only [matchPieces, List.isSuffixOf_iff_suffix, filled_cons, filled_nil]
        constructor
        · intro ⟨filling, hfilling⟩
          exact ⟨filling, [], by simp [hfilling], rfl⟩
        · intro ⟨filling, rest, htext, hrest⟩
          exact ⟨filling, by simp [htext, hrest]⟩
      · rw [filled_cons]
        constructor
        · intro h
          rcases hdrop : dropThrough? piece text with _ | rest
          · simp [matchPieces_of_not_found hlast hdrop] at h
          · rw [matchPieces_of_found hlast hdrop] at h
            obtain ⟨before, hbefore⟩ := eq_of_dropThrough? hdrop
            exact ⟨before, rest, hbefore, ih.mp h⟩
        · intro h
          obtain ⟨before, after, rfl, hafter⟩ := h
          obtain ⟨skipped, hdrop⟩ := dropThrough?_leftmost before piece after
          rw [matchPieces_of_found hlast hdrop]
          exact ih.mpr (hafter.append hlast skipped)

/-- A pattern matches the texts that its pieces make. -/
theorem isMatch_iff_of_fallsInto {pattern text : String}
    (h : FallsInto star pattern.toList first others) :
    isMatch pattern text = true ↔ ∃ rest, text.toList = first ++ rest ∧ Filled others rest := by
  unfold isMatch
  rw [Text.fallsInto_iff.mp h]
  dsimp only
  rcases hdrop : dropFront? first text.toList with _ | rest
  · simp only [Bool.false_eq_true, false_iff]
    intro ⟨rest, hrest, _⟩
    rw [dropFront?_eq_some_iff.mpr hrest] at hdrop
    cases hdrop
  · rw [matchPieces_iff, dropFront?_eq_some_iff.mp hdrop]
    simp

/-- A pattern with one star matches the texts that begin and end like it. -/
theorem isMatch_star_iff {front back : List Char} (hfront : star ∉ front) (hback : star ∉ back)
    {pattern : String} (hpattern : pattern.toList = front ++ star :: back) (text : String) :
    isMatch pattern text = true ↔ ∃ middle, text.toList = front ++ (middle ++ back) := by
  have hfalls : FallsInto star pattern.toList front [back] :=
    ⟨by simp [hpattern], by simp [hfront, hback]⟩
  rw [isMatch_iff_of_fallsInto hfalls]
  simp [filled_cons]

/-! ### Trying everything -/

/-- Matches a pattern character by character, and tries at a star each part of the text that the
star can stand for. -/
def backtrack : List Char → List Char → Bool
  | [], text => text.isEmpty
  | c :: pattern, text =>
    if c = star then text.tails.any fun rest => backtrack pattern rest
    else text.head? = some c && backtrack pattern text.tail

theorem backtrack_star (pattern text : List Char) :
    backtrack (star :: pattern) text = true ↔
      ∃ filling rest, text = filling ++ rest ∧ backtrack pattern rest = true := by
  rw [backtrack, if_pos rfl, List.any_eq_true]
  constructor
  · intro h
    obtain ⟨rest, hrest, hmatch⟩ := h
    obtain ⟨filling, rfl⟩ := (List.mem_tails _ _).mp hrest
    exact ⟨filling, rest, rfl, hmatch⟩
  · intro h
    obtain ⟨filling, rest, rfl, hmatch⟩ := h
    exact ⟨rest, (List.mem_tails _ _).mpr (List.suffix_append filling rest), hmatch⟩

/-- Characters that are no stars stand for themselves. -/
theorem backtrack_append (hfront : star ∉ front) (pattern text : List Char) :
    backtrack (front ++ pattern) text = true ↔
      ∃ rest, text = front ++ rest ∧ backtrack pattern rest = true := by
  induction front generalizing text with
  | nil => simp
  | cons c front ih =>
      have hc : c ≠ star := fun heq => hfront (by simp [heq])
      have hrest : star ∉ front := fun hmem => hfront (by simp [hmem])
      rw [List.cons_append, backtrack, if_neg hc]
      cases text with
      | nil => simp
      | cons d text => simp [ih hrest, and_assoc]

theorem backtrack_joinPieces (h : ∀ piece ∈ first :: others, star ∉ piece) (text : List Char) :
    backtrack (joinPieces star first others) text = true ↔
      ∃ rest, text = first ++ rest ∧ Filled others rest := by
  induction others generalizing first text with
  | nil => simpa [backtrack] using backtrack_append (h first (by simp)) [] text
  | cons piece others ih =>
      have hrest : ∀ text, backtrack (joinPieces star piece others) text = true ↔
          ∃ rest, text = piece ++ rest ∧ Filled others rest :=
        ih fun p hp => h p (List.mem_cons_of_mem _ hp)
      rw [Text.joinPieces_cons, backtrack_append (h first (by simp))]
      simp only [backtrack_star, hrest, filled_cons]
      constructor
      · intro ⟨rest, htext, filling, _, hfilling, after, hpiece, hafter⟩
        exact ⟨rest, htext, filling, after, by rw [hfilling, hpiece], hafter⟩
      · intro ⟨rest, htext, filling, after, hrest, hafter⟩
        exact ⟨rest, htext, filling, piece ++ after, hrest, after, rfl, hafter⟩

/-- **A pattern matches the texts that its pieces make, and no other.**  Every pattern falls into
pieces at its stars.  It matches a text just if the text is the first piece and behind it, for each
other piece, any filling and the piece.  So the search, which takes each piece at the first place
where it occurs, finds what trying everything finds. -/
theorem isMatch_iff_filled (pattern text : String) :
    (∃ first others, FallsInto star pattern.toList first others) ∧
    (∀ first others, FallsInto star pattern.toList first others →
      (isMatch pattern text = true ↔
        ∃ fillings : List (List Char), fillings.length = others.length ∧
          text.toList = first ++ (List.zipWith (· ++ ·) fillings others).flatten)) ∧
    isMatch pattern text = backtrack pattern.toList text.toList := by
  have hfalls : FallsInto star pattern.toList _ _ := Text.fallsInto_iff.mpr rfl
  refine ⟨⟨_, _, hfalls⟩, fun first others h => ?_, ?_⟩
  · rw [isMatch_iff_of_fallsInto h]
    constructor
    · intro ⟨rest, hrest, fillings, hlength, hfill⟩
      exact ⟨fillings, hlength, by rw [hrest, hfill, fill]⟩
    · intro ⟨fillings, hlength, htext⟩
      exact ⟨fill fillings others, htext, fillings, hlength, rfl⟩
  · have htry := backtrack_joinPieces hfalls.unmarked text.toList
    rw [← hfalls.joined] at htry
    rw [Bool.eq_iff_iff, isMatch_iff_of_fallsInto hfalls, htry]

/-- The middle piece takes the first `b`, and the last piece needs a `b` of its own. -/
theorem isMatch_iff_filled_letters :
    Text.FallsInto star "a*b*bc".toList ['a'] [['b'], ['b', 'c']] ∧
      isMatch "a*b*bc" "aabbbc" = true ∧ isMatch "a*b*bc" "aabc" = false := by
  have hfalls : Text.FallsInto star "a*b*bc".toList ['a'] [['b'], ['b', 'c']] :=
    ⟨by decide, by decide⟩
  refine ⟨hfalls, ?_, ?_⟩
  · exact ((isMatch_iff_filled "a*b*bc" "aabbbc").2.1 _ _ hfalls).mpr ⟨[['a'], ['b']], rfl, rfl⟩
  · rw [(isMatch_iff_filled "a*b*bc" "aabc").2.2]
    decide

end Glob

end IdentityStore
