/-
A written identifier is read back.

The text of an identifier is five groups of digits with a hyphen between any two.  The
reader passes over the hyphens to find the digits and over the digits to find the
hyphens, so both are followed group by group.
-/
import IdentityStore.Uuid
import Mathlib.Tactic.Common

namespace IdentityStore.Uuid

/-! ### Digits and hyphens -/

theorem digit?_digitChar : ∀ d : Fin 16, digit? (digitChar d) = some d := by decide

theorem digitChar_ne_hyphen : ∀ d : Fin 16, digitChar d ≠ '-' := by decide

theorem readDigits_digits (ds : List (Fin 16)) (index : Nat) (rest : List Char) :
    readDigits index (ds.map digitChar ++ rest)
      = (readDigits (index + ds.length) rest).map (ds ++ ·) := by
  induction ds generalizing index with
  | nil =>
      rw [List.map_nil, List.nil_append, List.length_nil, Nat.add_zero]
      cases readDigits index rest <;> rfl
  | cons d ds ih =>
      rw [List.map_cons, List.cons_append, readDigits, if_neg (digitChar_ne_hyphen d),
        digit?_digitChar]
      dsimp only
      rw [ih, List.length_cons, show index + 1 + ds.length = index + (ds.length + 1) by omega]
      cases readDigits (index + (ds.length + 1)) rest <;> rfl

theorem hyphens_digits (ds : List (Fin 16)) (place : Nat) (rest : List Char) :
    hyphens place (ds.map digitChar ++ rest) = hyphens (place + ds.length) rest := by
  induction ds generalizing place with
  | nil => rfl
  | cons d ds ih =>
      rw [List.map_cons, List.cons_append, hyphens, if_neg (digitChar_ne_hyphen d), ih,
        List.length_cons, show place + 1 + ds.length = place + (ds.length + 1) by omega]

theorem readDigits_hyphen (index : Nat) (rest : List Char) :
    readDigits index ('-' :: rest) = readDigits (index + 1) rest := by
  rw [readDigits, if_pos rfl]

theorem hyphens_hyphen (place : Nat) (rest : List Char) :
    hyphens place ('-' :: rest) = place :: hyphens (place + 1) rest := by
  rw [hyphens, if_pos rfl]

/-! ### Groups -/

/-- The five groups of the digits of an identifier. -/
structure Groups (u : Uuid) where
  (a b c d e : List (Fin 16))
  digits : u.digits = a ++ (b ++ (c ++ (d ++ e)))
  lengths : a.length = 8 ∧ b.length = 4 ∧ c.length = 4 ∧ d.length = 4 ∧ e.length = 12
  render : u.render.toList = a.map digitChar ++ '-' :: (b.map digitChar ++ '-' ::
    (c.map digitChar ++ '-' :: (d.map digitChar ++ '-' :: e.map digitChar)))

/-- Every identifier has its groups. -/
def groupsOf (u : Uuid) : Groups u where
  a := u.digits.take 8
  b := (u.digits.drop 8).take 4
  c := (u.digits.drop 12).take 4
  d := (u.digits.drop 16).take 4
  e := u.digits.drop 20
  digits := by
    conv_lhs => rw [← List.take_append_drop 8 u.digits, ← List.take_append_drop 4 (u.digits.drop 8),
      List.drop_drop, ← List.take_append_drop 4 (u.digits.drop (8 + 4)),
      List.drop_drop, ← List.take_append_drop 4 (u.digits.drop (8 + 4 + 4)), List.drop_drop]
  lengths := by
    have h := u.length_digits
    simp only [List.length_take, List.length_drop, h]
    decide
  render := by
    rw [Uuid.render, String.toList_ofList, groups]
    simp [List.map_take, List.map_drop]

theorem length_ofString_ascii {cs : List Char} (h : ∀ c ∈ cs, c.toNat < 0x80) :
    (Utf8.encode cs).length = cs.length := by
  induction cs with
  | nil => rfl
  | cons c cs ih =>
      rw [Utf8.encode_cons, List.length_append, ih fun c hc => h c (by simp [hc]),
        Utf8.encodeChar, if_pos (h c (by simp)), List.length_singleton, List.length_cons,
        Nat.add_comm]

theorem digitChar_lt : ∀ d : Fin 16, (digitChar d).toNat < 0x80 := by decide

/-- **A written identifier is read back.** -/
theorem read_render (u : Uuid) : read u.render = .ok u := by
  obtain ⟨a, b, c, d, e, hdigits, ⟨ha, hb, hc, hd, he⟩, hrender⟩ := groupsOf u
  have hascii : ∀ x ∈ u.render.toList, x.toNat < 0x80 := by
    rw [hrender]
    intro x hx
    simp only [List.mem_append, List.mem_cons, List.mem_map] at hx
    rcases hx with ⟨y, -, rfl⟩ | rfl | ⟨y, -, rfl⟩ | rfl | ⟨y, -, rfl⟩ | rfl | ⟨y, -, rfl⟩ | rfl |
      ⟨y, -, rfl⟩
    all_goals first | exact digitChar_lt _ | decide
  have hsize : (Utf8.ofString u.render).length = 36 := by
    rw [Utf8.ofString, length_ofString_ascii hascii, hrender]
    simp only [List.length_append, List.length_cons, List.length_map, ha, hb, hc, hd, he]
  have hread : readDigits 0 u.render.toList = .ok u.digits := by
    rw [hrender, readDigits_digits, readDigits_hyphen, readDigits_digits, readDigits_hyphen,
      readDigits_digits, readDigits_hyphen, readDigits_digits, readDigits_hyphen,
      ← List.append_nil (e.map digitChar), readDigits_digits, readDigits, hdigits]
    simp [Except.map]
  have hplaces : hyphens 0 u.render.toList = [8, 13, 18, 23] := by
    rw [hrender, hyphens_digits, hyphens_hyphen, hyphens_digits, hyphens_hyphen, hyphens_digits,
      hyphens_hyphen, hyphens_digits, hyphens_hyphen, ← List.append_nil (e.map digitChar),
      hyphens_digits, hyphens, ha, hb, hc, hd]
  have hbody : body u.render.toList 36 = ⟨u.render.toList, 0, 36, false⟩ := by
    rw [body, if_pos rfl]
  unfold read
  simp [hsize, hbody, hread, hplaces, misplaced?, u.length_digits, bind, Except.bind, pure,
    Except.pure]

end IdentityStore.Uuid
