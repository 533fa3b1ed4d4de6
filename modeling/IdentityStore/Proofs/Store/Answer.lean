/-
What a store in memory answers.

A store that is online answers each request as it says, in whatever order it lists keys.  A
store that is offline stays as it is, and so does one that is only read.  So a call that
succeeds was made of a store that was online, and what a write has left can be told without
knowing whether it succeeded.
-/
import IdentityStore.Proofs.Plan.Cut
import IdentityStore.Proofs.Store.Memory

namespace IdentityStore.MemoryStore

variable {order : ScanOrder} {s : MemoryStore}

/-! ### Stores that are online -/

theorem answerIn_eq (h : s.online = true) (r : Request) :
    s.answerIn order r = s.answerOnline order r := by
  rw [answerIn, if_pos h]

theorem answerIn_set (h : s.online = true) (key value : String) :
    s.answerIn order (.set key value) = (.ok (), s.put key (.text value)) := answerIn_eq h _

theorem answerIn_setList (h : s.online = true) (key entry : String) (entries : List String) :
    s.answerIn order (.setList key (entry :: entries))
      = (.ok (), s.put key (.list (entry :: entries))) :=
  answerIn_eq h _

theorem answerIn_delete (h : s.online = true) (keys : List String) :
    s.answerIn order (.delete keys) = (.ok (s.deleteAll keys).1, s.drop keys) := answerIn_eq h _

theorem answerIn_get (h : s.online = true) (key : String) :
    s.answerIn order (.get key) = (s.text? key, s) := answerIn_eq h _

theorem answerIn_getMany (h : s.online = true) (keys : List String) :
    s.answerIn order (.getMany keys) = (.ok (keys.map s.textOrNone), s) := answerIn_eq h _

theorem answerIn_has (h : s.online = true) (key : String) :
    s.answerIn order (.has key) = (.ok (s.entries.contains key), s) := answerIn_eq h _

theorem answerIn_list (h : s.online = true) (key : String) :
    s.answerIn order (.list key) = (s.list? key, s) := answerIn_eq h _

theorem answerIn_scan (h : s.online = true) (pattern : String) :
    s.answerIn order (.scan pattern) = (.ok (order.arrange s.keys pattern), s) := answerIn_eq h _

/-! ### Any store -/

theorem answerIn_offline (h : s.online ≠ true) (r : Request) :
    s.answerIn order r = (.error offlineError, s) := by
  rw [answerIn, if_neg h]

theorem answerIn_of_isRead {r : Request} (h : r.isRead = true) : (s.answerIn order r).2 = s := by
  by_cases hon : s.online = true
  · rw [answerIn_eq hon]
    cases r <;> first | rfl | cases h
  · rw [answerIn_offline hon]

/-- A call that succeeds finds the store online. -/
theorem online_of_answerIn {r : Request} {a : r.Reply} (h : (s.answerIn order r).1 = .ok a) :
    s.online = true := by
  by_contra hon
  rw [answerIn_offline hon] at h
  cases h

/-! ### Writes -/

theorem after_set (key value : String) :
    (s.answerIn order (.set key value)).2
      = if s.online = true then s.put key (.text value) else s := by
  split_ifs with hon
  · exact congrArg Prod.snd (answerIn_set hon key value)
  · rw [answerIn_offline hon]

theorem after_setList (key entry : String) :
    (s.answerIn order (.setList key [entry])).2
      = if s.online = true then s.put key (.list [entry]) else s := by
  split_ifs with hon
  · exact congrArg Prod.snd (answerIn_setList hon key entry [])
  · rw [answerIn_offline hon]

theorem after_delete (ks : List String) :
    (s.answerIn order (.delete ks)).2 = if s.online = true then s.drop ks else s := by
  split_ifs with hon
  · exact congrArg Prod.snd (answerIn_delete hon ks)
  · rw [answerIn_offline hon]

end IdentityStore.MemoryStore
