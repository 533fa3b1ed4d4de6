/-
Which hosts can be looked up.

An address is put together from its parts and taken apart again.  Port and database are written as
digits, so behind a host that has no slash, question mark or number sign the path is the number of
the database, and the last colon is the one in front of the port.  What remains is the host: as far
as nothing is passed over and nobody connects by name it is the one that was given.

This host is parted off at its first colon.  So it has none of its own, unless it is an address of
the sixth version in brackets: `flaw?_eq_none_iff`.
-/
import IdentityStore.Proofs.Config.Address
import IdentityStore.Proofs.Text.Split
import IdentityStore.Server
import Mathlib.Data.List.TakeWhile

namespace IdentityStore

variable {c mark : Char} {cs ds t host inner port database : List Char} {n m : Nat}

/-! ### Digits -/

namespace Text

theorem foldlM_eq_some_iff : ds.foldlM (fun n c => (decimalDigit? c).map (n * 10 + ·)) n = some m ↔
    (∀ c ∈ ds, c.isDigit = true) ∧ Nat.ofDigitChars 10 ds n = m := by
  induction ds generalizing n with
  | nil => simp [Nat.ofDigitChars_nil]
  | cons c ds ih =>
      rw [List.foldlM_cons, decimalDigit?_eq, Nat.ofDigitChars_cons, Nat.mul_comm 10 n]
      by_cases hc : c.isDigit = true
      · simp [hc, ih]
      · simp [hc]

theorem decimal?_eq_some_iff : decimal? ds = some n ↔ Decimal ds n := by
  unfold decimal?
  split_ifs with hds
  · exact ⟨nofun, fun h => absurd hds h.ne_nil⟩
  · rw [foldlM_eq_some_iff]
    exact ⟨fun h => ⟨hds, h.1, h.2⟩, fun h => ⟨h.digits, h.value⟩⟩

/-- What is no digit does not stand among digits. -/
theorem Decimal.notMem (h : Decimal ds n) (hc : c.isDigit = false) : c ∉ ds := fun hmem => by
  rw [h.digits c hmem] at hc
  cases hc

theorem Decimal.ne_of_mem (h : Decimal ds n) (hmem : mark ∈ ds) (hc : c.isDigit = false) :
    mark ≠ c :=
  fun heq => h.notMem hc (heq ▸ hmem)

end Text

open Text (Decimal)

namespace Server

namespace Address

/-! ### Brackets -/

theorem isDigit_of_isByte (h : isByte cs = true) (hc : c ∈ cs) : c.isDigit = true := by
  rw [isByte, Option.any_eq_true] at h
  obtain ⟨n, hn, -⟩ := h
  exact (Text.decimal?_eq_some_iff.mp hn).digits c hc

/-- The characters of four bytes. -/
theorem mem_of_isFourBytes (h : isFourBytes cs = true) (hc : c ∈ cs) :
    c = '.' ∨ c.isDigit = true := by
  simp only [isFourBytes, Bool.and_eq_true, List.all_eq_true] at h
  refine (Text.mem_split_of_mem hc).imp_right fun ⟨part, hpart, hc⟩ => ?_
  exact isDigit_of_isByte (h.2 part hpart) hc

/-- The digits of a group are no brackets. -/
theorem notMem_of_notMem_drop
    (h : ']' ∉ cs.drop ((cs.take n).takeWhile fun c => (Text.hexDigit? c).isSome).length) :
    ']' ∉ cs := by
  have hprefix : ((cs.take n).takeWhile fun c => (Text.hexDigit? c).isSome) <+: cs :=
    (List.takeWhile_prefix _).trans (List.take_prefix n cs)
  intro hmem
  rw [← List.prefix_iff_eq_append.mp hprefix, List.mem_append] at hmem
  rcases hmem with hdigit | hrest
  · cases List.all_eq_true.mp List.all_takeWhile _ hdigit
  · exact h hrest

/-- Groups have no brackets. -/
theorem notMem_of_isGroups {turns count : Nat} {squeezed : Bool}
    (h : isGroups turns count squeezed cs = true) : ']' ∉ cs := by
  fun_induction isGroups turns count squeezed cs with
  | case1 | case3 | case7 | case9 => cases h
  | case2 => exact List.not_mem_nil
  | case4 turns count squeezed r _ ih =>
      rw [Bool.and_eq_true] at h
      simpa using ih h.2
  | case5 turns count squeezed c r _ _ digits hrest =>
      exact notMem_of_notMem_drop (hrest ▸ List.not_mem_nil)
  | case6 =>
      rw [Bool.and_eq_true] at h
      intro hmem
      rcases mem_of_isFourBytes h.1 hmem with hpoint | hdigit
      · cases hpoint
      · cases hdigit
  | case8 turns count squeezed c r _ _ digits rest _ hrest ih =>
      rw [Bool.and_eq_true] at h
      refine notMem_of_notMem_drop (n := 4) ?_
      rw [hrest]
      simpa using ih h.2

theorem notMem_of_isSixth (h : isSixth inner = true) : ']' ∉ inner := by
  unfold isSixth at h
  split at h
  · simpa using notMem_of_isGroups h
  · cases h
  · cases h
  · exact notMem_of_isGroups h

/-! ### Host and port -/

theorem splitHost_append (inBrackets : Bool) (cs : List Char) :
    (splitHost inBrackets cs).1 ++ (splitHost inBrackets cs).2 = cs := by
  induction cs generalizing inBrackets with
  | nil => rfl
  | cons c cs ih =>
      rw [splitHost]
      split_ifs
      · rfl
      · exact congrArg (c :: ·) (ih _)

/-- What follows a host starts with a colon. -/
theorem splitHost_rest (inBrackets : Bool) (cs : List Char) :
    (splitHost inBrackets cs).2 = [] ∨ ∃ r, (splitHost inBrackets cs).2 = ':' :: r := by
  induction cs generalizing inBrackets with
  | nil => exact .inl rfl
  | cons c cs ih =>
      rw [splitHost]
      split_ifs with hc
      · exact .inr ⟨cs, by rw [hc.1]⟩
      · exact ih _

/-- A host without brackets has no colon. -/
theorem notMem_splitHost (cs : List Char) (h : '[' ∉ (splitHost false cs).1) :
    ':' ∉ (splitHost false cs).1 := by
  induction cs with
  | nil => exact List.not_mem_nil
  | cons c cs ih =>
      rw [splitHost] at h ⊢
      by_cases hc : c = ':'
      · simp [hc]
      · simp only [hc, false_and, if_false, List.mem_cons, not_or] at h ⊢
        have hbracket : decide (c = '[') = false := decide_eq_false (Ne.symm h.1)
        simp only [hbracket, Bool.false_and, Bool.or_false] at h ⊢
        exact ⟨Ne.symm hc, ih h.2⟩

theorem splitHost_plain (hcolon : ':' ∉ host) (hbracket : '[' ∉ host) (t : List Char) :
    splitHost false (host ++ ':' :: t) = (host, ':' :: t) := by
  induction host with
  | nil => rfl
  | cons c host ih =>
      rw [List.mem_cons, not_or] at hcolon hbracket
      have hc : decide (c = '[') = false := decide_eq_false (Ne.symm hbracket.1)
      rw [List.cons_append, splitHost, if_neg fun h => hcolon.1 h.1.symm, hc, Bool.false_and,
        Bool.or_false, ih hcolon.2 hbracket.2]

theorem splitHost_brackets (h : ']' ∉ inner) (t : List Char) :
    splitHost true (inner ++ ']' :: ':' :: t) = (inner ++ [']'], ':' :: t) := by
  induction inner with
  | nil => rfl
  | cons c inner ih =>
      rw [List.mem_cons, not_or] at h
      have hc : (decide (c = '[') || (true && decide (c ≠ ']'))) = true := by simp [Ne.symm h.1]
      rw [List.cons_append, splitHost, if_neg (by simp), hc, ih h.2]
      rfl

/-- Digits that come to a port are one. -/
theorem dropPort?_of_decimal (h : Decimal port n) (hn : n < 65536) : dropPort? port = some [] := by
  have hdigits : (port.takeWhile fun c => (Text.decimalDigit? c).isSome) = port := by
    rw [List.takeWhile_eq_self_iff]
    intro c hc
    rw [Text.decimalDigit?_eq, if_pos (h.digits c hc)]
    rfl
  rw [dropPort?, hdigits, Text.decimal?_eq_some_iff.mpr h, List.drop_length]
  simp [hn]

/-- A port is digits, up to a backslash. -/
theorem dropPort?_cases (h : dropPort? cs = some t) :
    t <:+ cs ∧ (t = [] ∧ ':' ∉ cs ∨ ∃ r, t = '\\' :: r) := by
  rw [dropPort?, Option.ite_none_right_eq_some] at h
  obtain ⟨hport, h⟩ := h
  cases h
  refine ⟨List.drop_suffix _ cs, hport.2.imp (fun hnil => ⟨hnil, fun hcolon => ?_⟩) fun hhead => ?_⟩
  · have hdigits := List.prefix_iff_eq_append.mp
      (List.takeWhile_prefix (l := cs) fun c => (Text.decimalDigit? c).isSome)
    rw [hnil, List.append_nil] at hdigits
    cases List.takeWhile_eq_self_iff.mp hdigits ':' hcolon
  · exact List.head?_eq_some_iff.mp hhead

/-! ### Paths -/

theorem plainPoints_of_notMem (h : '%' ∉ cs) : plainPoints cs = cs := by
  induction cs with
  | nil => rfl
  | cons c cs ih =>
      rw [List.mem_cons, not_or] at h
      unfold plainPoints
      split
      · rename_i hcs
        exact absurd (List.cons.inj hcs).1.symm h.1
      · rename_i hcs
        exact absurd (List.cons.inj hcs).1.symm h.1
      · rename_i hcs
        cases hcs
        rw [ih h.2]
      · rename_i hcs
        cases hcs

/-- Parts without points stay. -/
theorem resolve_eq {parts : List (List Char)} (found : List (List Char))
    (h : ∀ part ∈ parts, plainPoints part ≠ ['.'] ∧ plainPoints part ≠ ['.', '.']) :
    resolve found parts = found.reverse ++ parts := by
  induction parts generalizing found with
  | nil => simp [resolve]
  | cons part parts ih =>
      have hpart := h part (.head _)
      rw [resolve, if_neg (by simp [hpart]), ih _ fun p hp => h p (.tail _ hp)]
      simp

/-- Digits are no points. -/
theorem plainPoints_ne (h : Decimal ds n) :
    plainPoints ds ≠ ['.'] ∧ plainPoints ds ≠ ['.', '.'] := by
  have hpoint : '.' ∉ ds := h.notMem (by decide)
  rw [plainPoints_of_notMem (h.notMem (by decide))]
  exact ⟨fun heq => hpoint (heq ▸ .head _), fun heq => hpoint (heq ▸ .head _)⟩

theorem isDatabase_of_decimal (h : Decimal database m) (hm : m < 256) :
    isDatabase database = true := by
  unfold isDatabase
  split
  · exact absurd (.head _) (h.notMem (c := '+') (by decide))
  · rw [Text.decimal?_eq_some_iff.mpr h]
    simpa using hm

/-- The parts of a path that ends in digits. -/
theorem parts_of_notMem (hquery : '?' ∉ cs) (hfragment : '#' ∉ cs) (h : Decimal database m) :
    Text.split '/' ((cs ++ '/' :: database).takeWhile fun c => c ≠ '?' && c ≠ '#')
      = Text.split '/' cs ++ [database] := by
  have hall : ((cs ++ '/' :: database).takeWhile fun c => c ≠ '?' && c ≠ '#')
      = cs ++ '/' :: database := by
    rw [List.takeWhile_eq_self_iff]
    intro c hc
    rw [Bool.and_eq_true, decide_eq_true_eq, decide_eq_true_eq]
    rcases List.mem_append.mp hc with hc | hc
    · exact ⟨fun heq => hquery (heq ▸ hc), fun heq => hfragment (heq ▸ hc)⟩
    · rcases List.mem_cons.mp hc with rfl | hc
      · decide
      · exact ⟨h.ne_of_mem hc (by decide), h.ne_of_mem hc (by decide)⟩
  rw [hall, Text.split_append_mark, Text.split_of_notMem (h.notMem (c := '/') (by decide))]

/-- The number of a database is a path. -/
theorem pathFlaw?_database (h : Decimal database m) (hm : m < 256) :
    pathFlaw? ('/' :: database) = none := by
  have hparts : Text.split '/' (('/' :: database).takeWhile fun c => c ≠ '?' && c ≠ '#')
      = [[], database] :=
    parts_of_notMem List.not_mem_nil List.not_mem_nil h
  rw [pathFlaw?, hparts, List.tail_cons, resolve_eq [] (by simpa using plainPoints_ne h)]
  exact if_pos (.inr (isDatabase_of_decimal h hm))

/-- The characters in front of a path. -/
theorem notMem_of_isPathStart (h : ∀ c ∈ cs, isPathStart c = false) :
    '/' ∉ cs ∧ '?' ∉ cs ∧ '#' ∉ cs := by
  refine ⟨fun hmem => ?_, fun hmem => ?_, fun hmem => ?_⟩ <;> cases h _ hmem

/-- Behind such a host a port does not start a path, either. -/
theorem isPathStart_of_mem (hstart : ∀ c ∈ host, isPathStart c = false) (h : Decimal port n) :
    ∀ c ∈ host ++ ':' :: port, isPathStart c = false := by
  intro c hc
  rcases List.mem_append.mp hc with hc | hc
  · exact hstart c hc
  · rcases List.mem_cons.mp hc with rfl | hc
    · rfl
    · simp only [isPathStart, Bool.or_eq_false_iff, decide_eq_false_iff_not]
      exact ⟨⟨h.ne_of_mem hc (by decide), h.ne_of_mem hc (by decide)⟩,
        h.ne_of_mem hc (by decide)⟩

/-- A path with a part in front of the number of the database is refused. -/
theorem pathFlaw?_behind (hcs : ∀ c ∈ cs, isPathStart c = false) (h : Decimal database m) :
    pathFlaw? ('/' :: '\\' :: cs ++ '/' :: database) = some .badPath := by
  obtain ⟨hslash, hquery, hfragment⟩ := notMem_of_isPathStart hcs
  have hpoints : plainPoints ('\\' :: cs) = '\\' :: plainPoints cs := rfl
  have hpart : '/' ∉ '\\' :: cs := by simpa using hslash
  have hfront : Text.split '/' ('/' :: '\\' :: cs) = [[], '\\' :: cs] := by
    rw [← List.nil_append ('/' :: '\\' :: cs), Text.split_append_mark, Text.split_of_notMem hpart]
    rfl
  have hdots : ∀ part ∈ ['\\' :: cs, database],
      plainPoints part ≠ ['.'] ∧ plainPoints part ≠ ['.', '.'] := by
    simpa [hpoints] using plainPoints_ne h
  rw [pathFlaw?, parts_of_notMem (by simpa using hquery) (by simpa using hfragment) h, hfront]
  dsimp only [List.cons_append, List.nil_append, List.tail_cons]
  rw [resolve_eq [] hdots]
  rfl

/-! ### Addresses -/

/-- A host that stands for itself: an address of the sixth version in brackets, or characters none
of which is forbidden or a colon. -/
inductive IsHost : List Char → Prop
  | brackets {inner : List Char} (h : isSixth inner = true) : IsHost ('[' :: (inner ++ [']']))
  | plain {host : List Char} (ne_nil : host ≠ [])
      (h : ∀ c ∈ host, c ≠ ':' ∧ c ∉ forbidden) : IsHost host

/-- The part of a host that names it: what is seen behind the last at-sign. -/
def named (host : List Char) : List Char :=
  (Text.split '@' (host.filter isSeen)).getLastD []

variable {hasUser : Bool} {path : List Char}

/-- A host without flaw. -/
theorem cases_of_hostFlaw? (h : hostFlaw? host = none) :
    (∃ inner, host = '[' :: (inner ++ [']']) ∧ isSixth inner = true) ∨
      ∀ c ∈ host, c ∉ forbidden := by
  unfold hostFlaw? at h
  split at h
  · rename_i inner
    split_ifs at h with hinner
    obtain ⟨front, rfl⟩ := List.getLast?_eq_some_iff.mp hinner.1
    exact .inl ⟨front, rfl, by simpa using hinner.2⟩
  · split_ifs at h with hany
    exact .inr (by simpa using hany)

theorem partsFlaw?_of_split (hsplit : splitHost false cs = (host, ':' :: port)) (hne : host ≠ [])
    (hhost : hostFlaw? host = none) (hport : dropPort? port = some []) :
    partsFlaw? hasUser cs path = pathFlaw? path := by
  rw [partsFlaw?, hsplit]
  cases host with
  | nil => exact absurd rfl hne
  | cons c host => simp [hhost, hport]

/-- A host in front of a port stays a host when both are read again. -/
theorem partsFlaw?_of_isHost (h : IsHost host) (hport : Decimal port n) (hn : n < 65536) :
    partsFlaw? hasUser (host ++ ':' :: port) path = pathFlaw? path := by
  have hdrop := dropPort?_of_decimal hport hn
  cases h with
  | @brackets inner h =>
      have hsplit : splitHost false ('[' :: (inner ++ [']']) ++ ':' :: port)
          = ('[' :: (inner ++ [']']), ':' :: port) := by
        have hinner := splitHost_brackets (notMem_of_isSixth h) port
        simpa [splitHost] using congrArg (fun p => ('[' :: p.1, p.2)) hinner
      exact partsFlaw?_of_split hsplit (List.cons_ne_nil _ _) (by simp [hostFlaw?, h]) hdrop
  | plain hne h =>
      have hbracket : '[' ∉ host := fun hmem => (h _ hmem).2 (by decide)
      refine partsFlaw?_of_split (splitHost_plain (fun hmem => (h _ hmem).1 rfl) hbracket port)
        hne ?_ hdrop
      unfold hostFlaw?
      split
      · exact absurd (.head _) hbracket
      · simpa using fun c hc => (h c hc).2

/-- What is read without flaw ends at a colon. -/
theorem splitHost_rest_of_hostFlaw? (hport : Decimal port n)
    (h : hostFlaw? (splitHost false (host ++ ':' :: port)).1 = none) :
    ∃ r, (splitHost false (host ++ ':' :: port)).2 = ':' :: r := by
  refine (splitHost_rest false (host ++ ':' :: port)).resolve_left fun hrest => ?_
  have hwhole := splitHost_append false (host ++ ':' :: port)
  rw [hrest, List.append_nil] at hwhole
  rcases cases_of_hostFlaw? h with ⟨inner, hinner, -⟩ | hforbidden
  · -- The bracket at the end would be a digit of the port.
    have hlast : (host ++ [':'] ++ port).getLast? = some ']' := by
      rw [List.append_assoc, List.singleton_append, ← hwhole, hinner, ← List.cons_append,
        List.getLast?_concat]
    rw [List.getLast?_append, List.getLast?_eq_some_getLast hport.ne_nil, Option.some_or] at hlast
    cases hport.digits ']' (Option.some.inj hlast ▸ List.getLast_mem hport.ne_nil)
  · -- Without a bracket the host would end at the colon.
    refine notMem_splitHost _ (fun hmem => hforbidden _ hmem (by decide)) ?_
    rw [hwhole]
    simp

theorem hostFlaw?_of_partsFlaw? (h : partsFlaw? hasUser cs path = none) :
    hostFlaw? (splitHost false cs).1 = none := by
  rw [partsFlaw?, Option.or_eq_none_iff] at h
  exact h.1

/-- A host and a port without flaw, whose path goes on where the port ends. -/
theorem cases_of_partsFlaw? (hsplit : splitHost false cs = (host, ':' :: port))
    (h : partsFlaw? hasUser cs path = none) :
    host ≠ [] ∧ ∃ behind, dropPort? port = some behind ∧
      (behind ≠ [] → pathFlaw? ('/' :: behind ++ path) = none) := by
  rw [partsFlaw?, hsplit, Option.or_eq_none_iff] at h
  replace h := h.2
  rcases host with _ | ⟨c, host⟩
  · cases h
  · refine ⟨List.cons_ne_nil c host, ?_⟩
    dsimp only at h
    split at h
    · cases h
    · rename_i hdrop
      exact ⟨[], hdrop, fun hne => absurd rfl hne⟩
    · rename_i behind _ hdrop
      exact ⟨behind, hdrop, fun _ => h⟩

/-- What is read without flaw as host and port is the host. -/
theorem isHost_of_partsFlaw? (hstart : ∀ c ∈ host, isPathStart c = false)
    (hport : Decimal port n) (hdatabase : Decimal database m)
    (h : partsFlaw? hasUser (host ++ ':' :: port) ('/' :: database) = none) : IsHost host := by
  have hhost := hostFlaw?_of_partsFlaw? h
  have hplain := notMem_splitHost (host ++ ':' :: port)
  have hwhole := splitHost_append false (host ++ ':' :: port)
  obtain ⟨r, hrest⟩ := splitHost_rest_of_hostFlaw? hport hhost
  rcases hsplit : splitHost false (host ++ ':' :: port) with ⟨front, rest⟩
  rw [hsplit] at hhost hplain hwhole hrest
  dsimp only at hhost hplain hwhole hrest
  subst hrest
  obtain ⟨hne, behind, hdrop, hpath⟩ := cases_of_partsFlaw? hsplit h
  obtain ⟨hsuffix, ⟨-, hr⟩ | ⟨q, rfl⟩⟩ := dropPort?_cases hdrop
  · -- Both colons are the last one, so what was read is the host.
    have hlast := splitLastColon?_append front hr
    rw [hwhole, splitLastColon?_append host (hport.notMem (by decide))] at hlast
    cases hlast
    rcases cases_of_hostFlaw? hhost with ⟨inner, rfl, hsixth⟩ | hforbidden
    · exact .brackets hsixth
    · have hcolon := hplain fun hmem => hforbidden _ hmem (by decide)
      exact .plain hne fun c hc => ⟨fun heq => hcolon (heq ▸ hc), hforbidden c hc⟩
  · -- A backslash ends the port, and what follows makes the path too long.
    have hq : ∀ c ∈ q, isPathStart c = false := fun c hc => by
      refine isPathStart_of_mem hstart hport c (hwhole ▸ ?_)
      exact List.mem_append_right _ (.tail _ (hsuffix.mem (.tail _ hc)))
    cases (pathFlaw?_behind hq hdatabase).symm.trans (hpath (List.cons_ne_nil _ _))

theorem isPathStart_named (h : ∀ c ∈ host, isPathStart c = false) :
    ∀ c ∈ named host, isPathStart c = false := by
  intro c hc
  have hlast : named host ∈ Text.split '@' (host.filter isSeen) := by
    rw [named, Text.split, List.getLastD_cons]
    exact List.getLastD_mem_cons
  exact h c (List.mem_filter.mp (Text.mem_of_mem_split hlast hc)).1

/-- Digits are not passed over. -/
theorem filter_isSeen (h : Decimal ds n) : ds.filter isSeen = ds := by
  rw [List.filter_eq_self]
  intro c hc
  simp only [isSeen, Bool.and_eq_true, decide_eq_true_eq]
  exact ⟨⟨h.ne_of_mem hc (by decide), h.ne_of_mem hc (by decide)⟩, h.ne_of_mem hc (by decide)⟩

/-- What is wrong with an address whose host does not end before the port. -/
theorem flaw?_append (hstart : ∀ c ∈ host, isPathStart c = false) (hport : Decimal port n)
    (hdatabase : Decimal database m) :
    ∃ hasUser, flaw? (host ++ ':' :: port ++ '/' :: database)
      = partsFlaw? hasUser (named host ++ ':' :: port) ('/' :: database) := by
  have hseen : (host ++ ':' :: port ++ '/' :: database).filter isSeen
      = host.filter isSeen ++ ':' :: port ++ '/' :: database := by
    rw [List.filter_append, List.filter_append, List.filter_cons_of_pos rfl,
      List.filter_cons_of_pos rfl, filter_isSeen hport, filter_isSeen hdatabase]
  have hfront : ∀ c ∈ host.filter isSeen ++ ':' :: port, (!isPathStart c) = true := fun c hc => by
    rw [isPathStart_of_mem (fun c hc => hstart c (List.mem_filter.mp hc).1) hport c hc]
    rfl
  have hcolon : '@' ∉ ':' :: port := by
    simpa using hport.notMem (c := '@') (by decide)
  rw [flaw?, hseen, List.takeWhile_append_of_pos hfront, List.dropWhile_append_of_pos hfront,
    List.takeWhile_cons_of_neg (by decide), List.dropWhile_cons_of_neg (by decide),
    List.append_nil, Text.split_append hcolon, List.getLastD_concat]
  exact ⟨_, rfl⟩

/-- **An address has no flaw just if its host is one.** -/
theorem flaw?_eq_none_iff (hstart : ∀ c ∈ host, isPathStart c = false)
    (hport : Decimal port n) (hn : n < 65536) (hdatabase : Decimal database m) (hm : m < 256) :
    flaw? (host ++ ':' :: port ++ '/' :: database) = none ↔ IsHost (named host) := by
  obtain ⟨hasUser, hflaw⟩ := flaw?_append hstart hport hdatabase
  rw [hflaw]
  constructor
  · exact isHost_of_partsFlaw? (isPathStart_named hstart) hport hdatabase
  · intro h
    rw [partsFlaw?_of_isHost h hport hn, pathFlaw?_database hdatabase hm]

end Address

/-- Settings can be tried just if there is a host in them. -/
theorem Settings.check_eq_ok_iff {s : Settings}
    (h : ∀ c ∈ s.host.toList, Address.isPathStart c = false) :
    s.check = .ok () ↔ Address.IsHost (Address.named s.host.toList) := by
  have haddress : s.address.toList = s.host.toList ++ ':' :: s.port.toNat.repr.toList ++
      '/' :: s.database.toNat.repr.toList := by
    have hwritten : s.address
        = s.host ++ ":" ++ s.port.toNat.repr ++ "/" ++ s.database.toNat.repr := rfl
    simp [hwritten]
  rw [← Address.flaw?_eq_none_iff h (Text.decimal_repr _) s.port.toNat_lt (Text.decimal_repr _)
    s.database.toNat_lt, ← haddress, Settings.check]
  rcases Address.flaw? s.address.toList with _ | flaw <;> simp

example : ({ host := "iam@[::1]" } : Settings).check = .ok () ∧
    ({ host := "::1" } : Settings).check ≠ .ok () := by
  decide +kernel

end Server

end IdentityStore
