/-
Pieces of texts that are put together.

A text without the mark makes the piece longer in which it comes, and a mark parts what is in front
of it from what is behind.  So the pieces are known of a text of which the parts are known, and
pieces without marks are found again when they are joined.
-/
import IdentityStore.Text.Split

namespace IdentityStore.Text

variable {c mark : Char} {cs t front first : List Char} {others : List (List Char)}

/-! ### The first piece and the others -/

@[simp] theorem joinPieces_nil (mark : Char) (first : List Char) :
    joinPieces mark first [] = first := by
  simp [joinPieces]

@[simp] theorem joinPieces_cons (mark : Char) (first piece : List Char)
    (others : List (List Char)) :
    joinPieces mark first (piece :: others) = first ++ mark :: joinPieces mark piece others := by
  simp [joinPieces]

theorem pieces_append (h : mark ∉ front) (cs : List Char) :
    pieces mark (front ++ cs) = (front ++ (pieces mark cs).1, (pieces mark cs).2) := by
  induction front with
  | nil => rfl
  | cons c front ih =>
      have hc : c ≠ mark := fun heq => h (by simp [heq])
      have hfront : mark ∉ front := fun hmem => h (by simp [hmem])
      simp [pieces, ih hfront, hc]

theorem pieces_of_notMem (h : mark ∉ cs) : pieces mark cs = (cs, []) := by
  simpa [pieces] using pieces_append h []

theorem pieces_joinPieces (h : ∀ piece ∈ first :: others, mark ∉ piece) :
    pieces mark (joinPieces mark first others) = (first, others) := by
  induction others generalizing first with
  | nil => simpa using pieces_of_notMem (h first (by simp))
  | cons piece others ih =>
      have hrest : pieces mark (joinPieces mark piece others) = (piece, others) :=
        ih fun p hp => h p (List.mem_cons_of_mem _ hp)
      rw [joinPieces_cons, pieces_append (h first (by simp)), pieces, hrest, if_pos rfl]
      simp

theorem not_mem_of_mem_pieces (mark : Char) (cs : List Char) :
    ∀ piece ∈ (pieces mark cs).1 :: (pieces mark cs).2, mark ∉ piece := by
  induction cs with
  | nil => simp [pieces]
  | cons c cs ih =>
      by_cases hc : c = mark
      · simpa [pieces, hc] using ih
      · simp only [List.mem_cons, forall_eq_or_imp] at ih
        simp only [pieces, hc, if_false, List.mem_cons, forall_eq_or_imp, not_or]
        exact ⟨⟨fun heq => hc heq.symm, ih.1⟩, ih.2⟩

/-! ### All pieces as one list -/

theorem split_of_notMem (h : mark ∉ cs) : split mark cs = [cs] := by
  rw [split, pieces_of_notMem h]

theorem split_append_mark (mark : Char) (cs t : List Char) :
    split mark (cs ++ mark :: t) = split mark cs ++ split mark t := by
  induction cs with
  | nil => simp [split, pieces]
  | cons c cs ih =>
      simp only [split, List.cons_append, List.cons.injEq] at ih
      by_cases hc : c = mark
      · simp [split, pieces, hc, ih]
      · simp [split, pieces, hc, ih]

theorem mem_of_mem_split {part : List Char} (hpart : part ∈ split mark cs) (hc : c ∈ part) :
    c ∈ cs := by
  rw [← joinPieces_pieces mark cs, joinPieces, List.mem_append, List.mem_flatMap]
  rcases List.mem_cons.mp hpart with rfl | hothers
  · exact .inl hc
  · exact .inr ⟨part, hothers, .tail _ hc⟩

theorem mem_split_of_mem (hc : c ∈ cs) : c = mark ∨ ∃ part ∈ split mark cs, c ∈ part := by
  rw [← joinPieces_pieces mark cs, joinPieces, List.mem_append, List.mem_flatMap] at hc
  rcases hc with hfirst | ⟨part, hpart, hc⟩
  · exact .inr ⟨_, .head _, hfirst⟩
  · exact (List.mem_cons.mp hc).imp_right fun hc => ⟨part, .tail _ hpart, hc⟩

/-- Text without the character makes the last piece longer. -/
theorem split_append (h : mark ∉ t) (cs : List Char) :
    split mark (cs ++ t) = (split mark cs).dropLast ++ [(split mark cs).getLastD [] ++ t] := by
  induction cs with
  | nil => simp [split, pieces, pieces_of_notMem h]
  | cons c cs ih =>
      by_cases hc : c = mark
      · simpa [split, pieces, hc] using ih
      · simp only [split] at ih
        simp only [split, List.cons_append, pieces, if_neg hc]
        -- The first piece, which gets the character, is the longer one if it is the only one.
        rcases hothers : (pieces mark cs).2 with _ | ⟨second, others⟩
        · rw [hothers] at ih
          obtain ⟨hfirst, hrest⟩ := List.cons.inj ih
          simp [hfirst, hrest]
        · rw [hothers] at ih
          obtain ⟨hfirst, hrest⟩ := List.cons.inj ih
          simp [hfirst, hrest]

end IdentityStore.Text
