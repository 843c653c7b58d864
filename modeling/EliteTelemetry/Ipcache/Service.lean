/-
  EliteTelemetry.Ipcache.Service — the controller's IP cache: its data and the functions on
  them (`pkg/controller/ipcache/ipcache.go`). `Ipcache.System` runs them.

  A Go map is an association list with distinct keys. A revision is a `uint64` there and a `Nat` here:
  what is proved is of services that make fewer than 2^64 changes, so that no revision wraps.
-/

import EliteTelemetry.Lib.NumberedLog
import Mathlib.Data.List.AList

namespace EliteTelemetry.Ipcache

open EliteTelemetry.Lib.NumberedLog

def maxSyncBatchSize : Nat := 20
def compactThreshold : Nat := 1024
def maxRetainedLogEntries : Nat := 10 * compactThreshold
def clientBufferSize : Nat := 1024
def logBufferSize : Nat := 4 * 1024

/-! ## Changes -/

inductive OpCode where
  | set
  | del
  | other (code : Nat)
  deriving DecidableEq, Repr

/-- The `Meta` of an entry: a node's, a pod's, or not set. -/
inductive EntryMeta where
  | node (name : String)
  | pod (podNamespace name : String)
  | unset
  deriving DecidableEq, Repr

structure CacheEntry where
  ip : String
  metadata : EntryMeta
  deriving DecidableEq, Repr

structure ChangeLog where
  revision : Nat
  opcode : OpCode
  entry : CacheEntry
  deriving DecidableEq, Repr

abbrev Entries := AList fun _ : String => CacheEntry

def apply (m : Entries) (cl : ChangeLog) : Entries :=
  match cl.opcode with
  | .set => m.insert cl.entry.ip cl.entry
  | .del => m.erase cl.entry.ip
  | .other _ => m

def replayed (cls : List ChangeLog) : Entries := replay apply ∅ cls

def Keyed (m : Entries) : Prop := ∀ ip e, m.lookup ip = some e → e.ip = ip

theorem apply_keyed {m : Entries} (hm : Keyed m) (cl : ChangeLog) : Keyed (apply m cl) := by
  intro ip e he
  unfold apply at he
  cases hop : cl.opcode with
  | set =>
    simp only [hop] at he
    by_cases hip : ip = cl.entry.ip
    · subst hip
      rw [AList.lookup_insert] at he
      cases he
      rfl
    · rw [AList.lookup_insert_ne hip] at he
      exact hm ip e he
  | del =>
    simp only [hop] at he
    by_cases hip : ip = cl.entry.ip
    · subst hip
      rw [AList.lookup_erase] at he
      cases he
    · rw [AList.lookup_erase_ne hip] at he
      exact hm ip e he
  | other code =>
    simp only [hop] at he
    exact hm ip e he

theorem replayed_keyed (cls : List ChangeLog) : Keyed (replayed cls) := by
  have hfold : ∀ (cls : List ChangeLog) (m : Entries), Keyed m → Keyed (cls.foldl apply m) := by
    intro cls
    induction cls with
    | nil => intro m hm; exact hm
    | cons cl cls ih => intro m hm; exact ih _ (apply_keyed hm cl)
  apply hfold
  intro ip e he
  simp at he

/-! ## Clients -/

inductive ClientState where
  | stale
  | uptodate
  | blocking
  deriving DecidableEq, Repr

structure Client where
  revision : Nat
  closed : Bool
  state : ClientState
  ch : List ChangeLog
  chClosed : Bool
  deriving DecidableEq, Repr

def newClient (revision : Nat) : Client := ⟨revision, false, .stale, [], false⟩

namespace Client

def room (c : Client) : Bool := c.ch.length < clientBufferSize

def sent (c : Client) (cl : ChangeLog) : Client := { c with ch := c.ch ++ [cl], revision := cl.revision }

def backpressured (c : Client) : Client :=
  if c.closed ∨ c.state ≠ .blocking ∨ c.room then c else { c with closed := true }

end Client

/-! ## Compaction -/

structure CacheSnapshot where
  revision : Nat
  entries : Entries
  deriving DecidableEq

def compactLoop (minRevision : Nat) : CacheSnapshot → List ChangeLog → CacheSnapshot × List ChangeLog
  | snap, [] => (snap, [])
  | snap, cl :: log =>
    if minRevision < cl.revision then (snap, cl :: log)
    else compactLoop minRevision ⟨cl.revision, apply snap.entries cl⟩ log

/-- The least revision of an open client, the storage's where there is none smaller. -/
def minRevision (revision : Nat) (clients : List Client) : Nat :=
  clients.foldl (fun m c => if c.closed then m else if c.revision < m then c.revision else m) revision

def compactLog (revision : Nat) (clients : List Client) (snap : CacheSnapshot) (log : List ChangeLog) :
    CacheSnapshot × List ChangeLog :=
  let m := minRevision revision clients
  if log = [] ∨ (clients.all (·.closed) ∧ m = snap.revision) then (snap, log) else compactLoop m snap log

theorem minRevision_le (revision : Nat) (clients : List Client) :
    minRevision revision clients ≤ revision ∧
      ∀ c ∈ clients, c.closed = false → minRevision revision clients ≤ c.revision := by
  unfold minRevision
  induction clients generalizing revision with
  | nil => simp
  | cons c clients ih =>
    simp only [List.foldl_cons]
    obtain ⟨h1, h2⟩ := ih (if c.closed then revision else if c.revision < revision then c.revision else revision)
    have hstep : (if c.closed then revision else if c.revision < revision then c.revision else revision) ≤ revision := by
      split_ifs <;> omega
    refine ⟨by omega, ?_⟩
    intro d hd hopen
    rcases List.mem_cons.mp hd with rfl | hd
    · rw [if_neg (by simp [hopen])] at h1 ⊢
      split_ifs at h1 ⊢ <;> omega
    · exact h2 d hd hopen

/-! ## The binary search -/

/-- The loop of `findNext`; none: an index outside the slice, or out of fuel. -/
def findNextLoop (slice : List ChangeLog) (target : Nat) : Nat → Int → Int → Int → Option Int
  | 0, _, _, _ => none
  | fuel + 1, start, stop, ret =>
    if start ≤ stop then
      let mid := (start + stop) / 2
      if mid < 0 then none
      else
        match slice[mid.toNat]? with
        | none => none
        | some cl =>
          if cl.revision ≤ target then findNextLoop slice target fuel (mid + 1) stop ret
          else findNextLoop slice target fuel start (mid - 1) mid
    else some ret

/-- The least index whose revision is above the target, or -1. -/
def findNext (slice : List ChangeLog) (target : Nat) : Option Int :=
  findNextLoop slice target (slice.length + 1) 0 (slice.length - 1) (-1)

theorem findNextLoop_eq (slice : List ChangeLog) (target k : Nat)
    (hlow : ∀ i cl, i < k → slice[i]? = some cl → cl.revision ≤ target)
    (hhigh : ∀ i cl, k ≤ i → slice[i]? = some cl → target < cl.revision) (fuel : Nat) :
    ∀ start stop ret : Int, 0 ≤ start → start ≤ k → k ≤ stop + 1 → stop < slice.length → stop + 1 - start < fuel →
      ret = (if stop + 1 = slice.length then -1 else stop + 1) →
      findNextLoop slice target fuel start stop ret = some (if k = slice.length then -1 else (k : Int)) := by
  induction fuel with
  | zero =>
    intro start stop ret h0 h1 h2 h3 hf
    omega
  | succ fuel ih =>
    intro start stop ret h0 h1 h2 h3 hf hret
    unfold findNextLoop
    by_cases hle : start ≤ stop
    · rw [if_pos hle]
      obtain ⟨mid, hmid⟩ : ∃ mid : Nat, (start + stop) / 2 = mid := ⟨((start + stop) / 2).toNat, by omega⟩
      have hlt : mid < slice.length := by omega
      simp only [hmid]
      rw [if_neg (by omega), Int.toNat_natCast, List.getElem?_eq_getElem hlt]
      by_cases hrev : slice[mid].revision ≤ target
      · have hmk : mid < k := by
          by_contra hge
          have := hhigh mid _ (by omega) (List.getElem?_eq_getElem hlt)
          omega
        simp only [hrev, if_true]
        exact ih (mid + 1) stop ret (by omega) (by omega) h2 h3 (by omega) hret
      · have hkm : k ≤ mid := by
          by_contra hlt'
          exact hrev (hlow mid _ (by omega) (List.getElem?_eq_getElem hlt))
        simp only [hrev, if_false]
        refine ih start (mid - 1) mid h0 h1 (by omega) (by omega) (by omega) ?_
        rw [if_neg (by omega)]
        omega
    · rw [if_neg hle, hret]
      have hks : (k : Int) = stop + 1 := by omega
      rw [← hks]
      congr 1
      split_ifs <;> omega

theorem findNext_eq (slice : List ChangeLog) (target k : Nat) (hk : k ≤ slice.length)
    (hlow : ∀ i cl, i < k → slice[i]? = some cl → cl.revision ≤ target)
    (hhigh : ∀ i cl, k ≤ i → slice[i]? = some cl → target < cl.revision) :
    findNext slice target = some (if k = slice.length then -1 else (k : Int)) := by
  unfold findNext
  refine findNextLoop_eq slice target k hlow hhigh _ 0 _ _ (by omega) (by omega) (by omega) (by omega) (by omega) ?_
  rw [if_pos (by omega)]

/-- The change at `k` is the first above the target. -/
def IsNext (slice : List ChangeLog) (target k : Nat) : Prop :=
  (∃ cl, slice[k]? = some cl ∧ target < cl.revision) ∧
    ∀ i cl, i < k → slice[i]? = some cl → cl.revision ≤ target

theorem isNext_not_forall {slice : List ChangeLog} {target k : Nat} (h : IsNext slice target k) :
    ¬∀ cl ∈ slice, cl.revision ≤ target := by
  intro hall
  obtain ⟨cl, hcl, habove⟩ := h.1
  have := hall cl (List.mem_of_getElem? hcl)
  omega

/-- A log in order splits at one place: up to the target before it, above the target from it on. -/
theorem exists_split {slice : List ChangeLog} (hsorted : slice.Pairwise (·.revision < ·.revision)) (target : Nat) :
    ∃ k ≤ slice.length, (∀ i cl, i < k → slice[i]? = some cl → cl.revision ≤ target) ∧
      ∀ i cl, k ≤ i → slice[i]? = some cl → target < cl.revision := by
  induction slice with
  | nil => exact ⟨0, le_rfl, by simp, by simp⟩
  | cons head slice ih =>
    obtain ⟨hhead, hrest⟩ := List.pairwise_cons.mp hsorted
    by_cases hle : head.revision ≤ target
    · obtain ⟨k, hk, hlow, hhigh⟩ := ih hrest
      refine ⟨k + 1, Nat.succ_le_succ hk, ?_, ?_⟩
      · intro i cl hi hcl
        cases i with
        | zero =>
          obtain rfl : head = cl := by simpa using hcl
          exact hle
        | succ i => exact hlow i cl (by omega) (by simpa using hcl)
      · intro i cl hi hcl
        cases i with
        | zero => omega
        | succ i => exact hhigh i cl (by omega) (by simpa using hcl)
    · refine ⟨0, Nat.zero_le _, by simp, ?_⟩
      intro i cl _ hcl
      rcases List.mem_cons.mp (List.mem_of_getElem? hcl) with rfl | hmem
      · omega
      · have := hhead cl hmem
        omega

/-- The search comes back from every log in order, and never reads outside it: with -1 where
    no change is above the target, and else with the first that is. -/
theorem findNext_least {slice : List ChangeLog} (hsorted : slice.Pairwise (·.revision < ·.revision)) (target : Nat) :
    ∃ ret, findNext slice target = some ret ∧ (ret = -1 ↔ ∀ cl ∈ slice, cl.revision ≤ target) ∧
      (ret ≠ -1 → ∃ k : Nat, ret = k ∧ IsNext slice target k) := by
  obtain ⟨k, hk, hlow, hhigh⟩ := exists_split hsorted target
  refine ⟨_, findNext_eq slice target k hk hlow hhigh, ?_⟩
  by_cases hend : k = slice.length
  · rw [if_pos hend]
    have hall : ∀ cl ∈ slice, cl.revision ≤ target := by
      intro cl hmem
      obtain ⟨i, hi, hcl⟩ := List.getElem_of_mem hmem
      exact hlow i cl (by omega) (by rw [List.getElem?_eq_getElem hi, hcl])
    exact ⟨iff_of_true rfl hall, fun hne => absurd rfl hne⟩
  · rw [if_neg hend]
    have hlt : k < slice.length := by omega
    have hnext : IsNext slice target k :=
      ⟨⟨slice[k], List.getElem?_eq_getElem hlt, hhigh k _ le_rfl (List.getElem?_eq_getElem hlt)⟩, hlow⟩
    exact ⟨iff_of_false (by omega) (isNext_not_forall hnext), fun _ => ⟨k, rfl, hnext⟩⟩

def gappedLog : List ChangeLog := [3, 5, 8].map fun revision => ⟨revision, .set, ⟨"10.0.0.1", .unset⟩⟩

theorem findNext_least_gapped :
    gappedLog.Pairwise (·.revision < ·.revision) ∧ findNext gappedLog 6 = some 2 ∧ IsNext gappedLog 6 2 := by
  have hsorted : gappedLog.Pairwise (·.revision < ·.revision) := by decide
  have hfound : findNext gappedLog 6 = some 2 := by decide
  obtain ⟨ret, hret, -, hnext⟩ := findNext_least hsorted 6
  obtain rfl : 2 = ret := Option.some.inj (hfound.symm.trans hret)
  obtain ⟨k, hk, hk'⟩ := hnext (by decide)
  obtain rfl : k = 2 := by omega
  exact ⟨hsorted, hfound, hk'⟩

end EliteTelemetry.Ipcache
