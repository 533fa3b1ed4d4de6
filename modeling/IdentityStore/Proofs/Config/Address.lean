/-
Which sources are addresses.

The host of an address ends at its last colon, so that it may have colons of its own.  Behind the
colon stands the port, a plus sign or none and decimal digits that come to less than 2^16.  The
digits are read from the left, and the reader stops where they come to too much.  Nothing is lost by
that: what digits come to never gets less when more of them follow.

So a source is accepted just if it has this form, whatever zeros the port begins with, and an
address that was written is read back: `address_iff`.
-/
import IdentityStore.Config.Basic
import Mathlib.Tactic.Common

namespace IdentityStore

open Nat (ofDigitChars)

variable {c : Char} {cs ds host port : List Char} {n m : Nat} {p : UInt16}

/-! ### Digits -/

namespace Text

theorem decimalDigit?_eq (c : Char) :
    decimalDigit? c = if c.isDigit then some (c.toNat - '0'.toNat) else none := by
  have hdigit : c.isDigit = true ↔ 0x30 ≤ c.toNat ∧ c.toNat ≤ 0x39 := by
    simp only [Char.isDigit, Bool.and_eq_true, decide_eq_true_eq, ge_iff_le,
      UInt32.le_iff_toNat_le]
    rfl
  simp only [hdigit]
  rfl

/-- The characters are decimal digits, at least one, and come to a number. -/
structure Decimal (ds : List Char) (n : Nat) : Prop where
  ne_nil : ds ≠ []
  digits : ∀ c ∈ ds, c.isDigit = true
  value : ofDigitChars 10 ds 0 = n

/-- A number is spelled by its digits. -/
theorem decimal_repr (n : Nat) : Decimal n.repr.toList n := by
  rw [Nat.toList_repr]
  refine ⟨Nat.toDigits_ne_nil, fun c hc => ?_, Nat.ofDigitChars_ten_toDigits⟩
  exact Nat.isDigit_of_mem_toDigits (by decide) (by decide) hc

/-- More digits come to no less. -/
theorem le_ofDigitChars (ds : List Char) (n : Nat) : n ≤ ofDigitChars 10 ds n := by
  induction ds generalizing n with
  | nil => exact Nat.le_refl n
  | cons c ds ih =>
      have hstep := ih (10 * n + (c.toNat - '0'.toNat))
      rw [Nat.ofDigitChars_cons]
      omega

end Text

open Text (Decimal)

/-! ### Ports -/

/-- The characters spell a port: a plus sign or none, and decimal digits. -/
def SpellsPort (cs : List Char) (p : UInt16) : Prop :=
  ∃ ds, (cs = ds ∨ cs = '+' :: ds) ∧ Decimal ds p.toNat

theorem readPortDigits_eq_ok_iff (hn : n < 65536) :
    readPortDigits n cs = .ok m ↔
      (∀ c ∈ cs, c.isDigit = true) ∧ ofDigitChars 10 cs n = m ∧ m < 65536 := by
  induction cs generalizing n with
  | nil =>
      simp only [readPortDigits, Except.ok.injEq, List.not_mem_nil, false_implies, implies_true,
        Nat.ofDigitChars_nil, true_and]
      omega
  | cons c cs ih =>
      by_cases hc : c.isDigit = true
      · rw [readPortDigits, Text.decimalDigit?_eq, if_pos hc, Nat.ofDigitChars_cons,
          Nat.mul_comm 10 n]
        dsimp only
        by_cases hfits : n * 10 + (c.toNat - '0'.toNat) < 65536
        · rw [if_pos hfits, ih hfits]
          simp [hc]
        · -- What the digits come to has already passed the bound.
          have hmore := Text.le_ofDigitChars cs (n * 10 + (c.toNat - '0'.toNat))
          rw [if_neg hfits]
          simp only [reduceCtorEq, false_iff]
          omega
      · rw [readPortDigits, Text.decimalDigit?_eq, if_neg hc]
        simp [hc]

theorem map_readPortDigits_iff (hne : ds ≠ []) :
    (readPortDigits 0 ds).map UInt16.ofNat = .ok p ↔ Decimal ds p.toNat := by
  constructor
  · intro h
    rcases hread : readPortDigits 0 ds with flaw | m
    · simp [hread, Except.map] at h
    · obtain ⟨hdigits, hvalue, hm⟩ := (readPortDigits_eq_ok_iff (by omega)).mp hread
      rw [hread] at h
      cases h
      exact ⟨hne, hdigits, by rw [hvalue, UInt16.toNat_ofNat_of_lt' hm]⟩
  · intro h
    rw [(readPortDigits_eq_ok_iff (by omega)).mpr ⟨h.digits, h.value, p.toNat_lt⟩]
    simp [Except.map]

/-- Behind a plus sign there are digits only. -/
theorem spellsPort_plus : SpellsPort ('+' :: ds) p ↔ Decimal ds p.toNat := by
  constructor
  · intro ⟨_, hcs, hdecimal⟩
    rcases hcs with rfl | hcs
    · exact absurd (hdecimal.digits '+' (by simp)) (by decide)
    · cases hcs
      exact hdecimal
  · exact fun h => ⟨ds, .inr rfl, h⟩

theorem spellsPort_unsigned (h : ∀ ds, cs ≠ '+' :: ds) :
    SpellsPort cs p ↔ Decimal cs p.toNat := by
  constructor
  · intro ⟨ds, hcs, hdecimal⟩
    rcases hcs with rfl | hcs
    · exact hdecimal
    · exact absurd hcs (h ds)
  · exact fun h => ⟨cs, .inl rfl, h⟩

/-- **A port is read just if it is spelled.** -/
theorem readPort_eq_ok_iff : readPort cs = .ok p ↔ SpellsPort cs p := by
  have hnone : ¬ Decimal [] p.toNat := fun h => h.ne_nil rfl
  unfold readPort
  split
  · rw [spellsPort_unsigned (by simp)]
    simp [hnone]
  · rw [spellsPort_plus]
    simp [hnone]
  · rename_i r hne
    rw [spellsPort_plus]
    exact map_readPortDigits_iff fun hnil => hne (by rw [hnil])
  · rename_i hne _ hsign
    rw [spellsPort_unsigned hsign]
    exact map_readPortDigits_iff hne

/-! ### The last colon -/

theorem splitLastColon?_eq_none_iff : splitLastColon? cs = none ↔ ':' ∉ cs := by
  induction cs with
  | nil => simp [splitLastColon?]
  | cons c cs ih =>
      rw [splitLastColon?]
      rcases hsplit : splitLastColon? cs with _ | ⟨host, port⟩
      · have hcs := ih.mp hsplit
        by_cases hc : c = ':'
        · simp [hc]
        · simp [hc, hcs, eq_comm]
      · have hcs : ':' ∈ cs := by
          by_contra hmem
          rw [ih.mpr hmem] at hsplit
          cases hsplit
        simp [hcs]

theorem splitLastColon?_append (host : List Char) (h : ':' ∉ port) :
    splitLastColon? (host ++ ':' :: port) = some (host, port) := by
  induction host with
  | nil => rw [List.nil_append, splitLastColon?, splitLastColon?_eq_none_iff.mpr h, if_pos rfl]
  | cons c host ih => rw [List.cons_append, splitLastColon?, ih]

theorem splitLastColon?_eq_some_iff :
    splitLastColon? cs = some (host, port) ↔ cs = host ++ ':' :: port ∧ ':' ∉ port := by
  constructor
  · intro h
    induction cs generalizing host with
    | nil => simp [splitLastColon?] at h
    | cons c cs ih =>
        rw [splitLastColon?] at h
        rcases hsplit : splitLastColon? cs with _ | ⟨front, back⟩
        · rw [hsplit] at h
          by_cases hc : c = ':'
          · simp only [hc, if_true, Option.some.injEq, Prod.mk.injEq] at h
            obtain ⟨rfl, rfl⟩ := h
            exact ⟨by simp [hc], splitLastColon?_eq_none_iff.mp hsplit⟩
          · simp [hc] at h
        · rw [hsplit] at h
          cases h
          obtain ⟨rfl, hport⟩ := ih hsplit
          exact ⟨rfl, hport⟩
  · intro ⟨hcs, hport⟩
    rw [hcs, splitLastColon?_append host hport]

/-! ### Addresses -/

namespace DataSource

variable {d : DataSource}

/-- What a source lacks that is no address, as the flaw says. -/
inductive Lacks (source : String) : ConfigFlaw → Prop
  | colon (h : ':' ∉ source.toList) : Lacks source (.notAddress source)
  | host {port : List Char} (h : source.toList = ':' :: port) (last : ':' ∉ port) :
      Lacks source (.noHost source)
  | port {host port : List Char} {flaw : PortFlaw} (host_ne_nil : host ≠ [])
      (h : source.toList = host ++ ':' :: port) (last : ':' ∉ port)
      (none : ∀ p, ¬ SpellsPort port p) : Lacks source (.badPort source flaw)

theorem address_of_split (hhost : host ≠ []) (h : d.source.toList = host ++ ':' :: port)
    (hport : ':' ∉ port) :
    d.address = match readPort port with
      | .ok p => .ok (String.ofList host, p)
      | .error flaw => .error (.badPort d.source flaw) := by
  unfold address
  rw [splitLastColon?_eq_some_iff.mpr ⟨h, hport⟩]
  cases host with
  | nil => exact absurd rfl hhost
  | cons c host => rfl

/-- The address of a source that is a host, a colon and a port. -/
theorem address_of_spelled {host : String} (hhost : host ≠ "")
    (h : d.source.toList = host.toList ++ ':' :: port) (hport : ':' ∉ port)
    (hspells : SpellsPort port p) : d.address = .ok (host, p) := by
  have hne : host.toList ≠ [] := fun heq => hhost (String.toList_eq_nil_iff.mp heq)
  rw [address_of_split hne h hport, readPort_eq_ok_iff.mpr hspells]
  simp

/-- A source is an address, or lacks something that the flaw names. -/
theorem address_cases (d : DataSource) :
    (∃ host port p, host ≠ "" ∧ d.source.toList = host.toList ++ ':' :: port ∧ ':' ∉ port ∧
      SpellsPort port p ∧ d.address = .ok (host, p)) ∨
    ∃ flaw, d.address = .error flaw ∧ Lacks d.source flaw := by
  rcases hsplit : splitLastColon? d.source.toList with _ | ⟨host, port⟩
  · refine .inr ⟨.notAddress d.source, ?_, .colon (splitLastColon?_eq_none_iff.mp hsplit)⟩
    rw [address, hsplit]
  · obtain ⟨hsource, hport⟩ := splitLastColon?_eq_some_iff.mp hsplit
    by_cases hhost : host = []
    · subst hhost
      refine .inr ⟨.noHost d.source, ?_, .host hsource hport⟩
      rw [address, hsplit]
    · have haddress := address_of_split hhost hsource hport
      rcases hread : readPort port with flaw | p
      · rw [hread] at haddress
        refine .inr ⟨.badPort d.source flaw, haddress, .port hhost hsource hport fun p hp => ?_⟩
        rw [readPort_eq_ok_iff.mpr hp] at hread
        cases hread
      · rw [hread] at haddress
        refine .inl ⟨String.ofList host, port, p, ?_, ?_, hport, ?_, haddress⟩
        · simpa using hhost
        · simpa using hsource
        · exact readPort_eq_ok_iff.mp hread

/-- **A source is an address just if it is a host, a colon and a port.**  The host is not empty, and
the colon is the last one of the source.  Any other source is refused for what it lacks: a colon, a
host in front of the last one, or a port behind it.  A host and a port that are written with a colon
between are read back. -/
theorem address_iff (d : DataSource) :
    (∀ host p, d.address = .ok (host, p) ↔
      host ≠ "" ∧ ∃ port, d.source.toList = host.toList ++ ':' :: port ∧ ':' ∉ port ∧
        SpellsPort port p) ∧
    ((∃ host p, d.address = .ok (host, p)) ∨
      ∃ flaw, d.address = .error flaw ∧ Lacks d.source flaw) ∧
    ∀ (host : String) (p : UInt16), host ≠ "" → d.source = host ++ ":" ++ p.toNat.repr →
      d.address = .ok (host, p) := by
  refine ⟨fun host p => ⟨fun h => ?_, fun h => ?_⟩, ?_, fun host p hhost hsource => ?_⟩
  · rcases address_cases d with ⟨_, port, _, hhost, hsource, hport, hspells, hok⟩ | ⟨_, herror, _⟩
    · cases h.symm.trans hok
      exact ⟨hhost, port, hsource, hport, hspells⟩
    · cases h.symm.trans herror
  · obtain ⟨hhost, port, hsource, hport, hspells⟩ := h
    exact address_of_spelled hhost hsource hport hspells
  · rcases address_cases d with ⟨host, _, p, _, _, _, _, hok⟩ | herror
    · exact .inl ⟨host, p, hok⟩
    · exact .inr herror
  · have hdecimal := Text.decimal_repr p.toNat
    have hspelled : d.source.toList = host.toList ++ ':' :: p.toNat.repr.toList := by
      simp [hsource]
    have hlast : ':' ∉ p.toNat.repr.toList := fun hcolon =>
      absurd (hdecimal.digits ':' hcolon) (by decide)
    exact address_of_spelled hhost hspelled hlast ⟨_, .inl rfl, hdecimal⟩

/-- The host of an address may have colons. -/
theorem address_iff_local : ("::1" ≠ "" ∧ "::1:6379" = "::1" ++ ":" ++ (6379 : UInt16).toNat.repr) ∧
    ({ kind := .redis, source := "::1:6379" } : DataSource).address = .ok ("::1", 6379) := by
  have hsource : "::1:6379" = "::1" ++ ":" ++ (6379 : UInt16).toNat.repr := by decide
  exact ⟨⟨by decide, hsource⟩, (address_iff _).2.2 "::1" 6379 (by decide) hsource⟩

end DataSource

end IdentityStore
