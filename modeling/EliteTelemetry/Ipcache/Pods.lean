/-
  EliteTelemetry.Ipcache.Pods — which pod an address leads to (`onAddPod`, `onUpdatePod`,
  `onDeletePod` and `logChange` of `pkg/controller/ipcache/ipcache.go`).

  A handler looks only at its own pod: its entries are set when it comes, deleted when it
  goes, and deleted and set anew when its addresses change. Addresses are reused, and the
  new owner's arrival can be handled before the old one's departure, whose deletion then
  takes the new owner's entry.

  `assigned` says which pod an address was given to last. In every state of a run the map
  leads each address to the live pod it was given to last exactly when no pod is deleted, or
  changes its addresses, while one of its addresses belongs to another (`pods_exact_iff`).

  The events are an informer's: an update or a deletion of a pod comes after its addition,
  an update's old object is the one handled last, and an object with the same version is the
  same. Neither a pod's name nor its use of the host's network ever changes.
-/

import EliteTelemetry.Ipcache.Service
import EliteTelemetry.Lib.Machine

namespace EliteTelemetry.Ipcache

open EliteTelemetry.Lib.Machine
open EliteTelemetry.Lib.NumberedLog

/-! ## Pods -/

structure PodStatus where
  /-- None: nil. -/
  podIPs : Option (List String)
  podIP : String
  deriving DecidableEq, Repr

structure PodKey where
  podNamespace : String
  name : String
  deriving DecidableEq, Repr

structure Pod where
  key : PodKey
  resourceVersion : String
  hostNetwork : Bool
  status : PodStatus
  deriving DecidableEq, Repr

def allPodIPs (pod : Pod) : List String :=
  match pod.status.podIPs with
  | some ips => ips
  | none => if pod.status.podIP ≠ "" then [pod.status.podIP] else []

def entryOf (key : PodKey) (ip : String) : CacheEntry := ⟨ip, .pod key.podNamespace key.name⟩

def Pod.addresses (pod : Pod) : List String := if pod.hostNetwork then [] else allPodIPs pod

def createCacheEntries4Pod (pod : Pod) : List CacheEntry := pod.addresses.map (entryOf pod.key)

/-! ## The handlers -/

structure Emitted where
  revision : Nat
  log : List ChangeLog
  deriving DecidableEq, Repr

variable {key : PodKey}

namespace Emitted

def logOne (op : OpCode) (m : Emitted) (e : CacheEntry) : Emitted :=
  ⟨m.revision + 1, m.log ++ [⟨m.revision + 1, op, e⟩]⟩

def logChange (m : Emitted) (op : OpCode) (entries : List CacheEntry) : Emitted := entries.foldl (logOne op) m

def onAddPod (m : Emitted) (pod : Pod) : Emitted :=
  let entries := createCacheEntries4Pod pod
  if 0 < entries.length then m.logChange .set entries else m

def onDeletePod (m : Emitted) (pod : Pod) : Emitted :=
  let entries := createCacheEntries4Pod pod
  if entries.length = 0 then m else m.logChange .del entries

/-- `onUpdatePod` gets past its two returns. -/
def changes (old new : Pod) : Bool :=
  new.resourceVersion ≠ old.resourceVersion ∧ allPodIPs old ≠ allPodIPs new

def onUpdatePod (m : Emitted) (old new : Pod) : Emitted :=
  if changes old new then
    let toRemove := createCacheEntries4Pod old
    let m := if 0 < toRemove.length then m.logChange .del toRemove else m
    let toAdd := createCacheEntries4Pod new
    if 0 < toAdd.length then m.logChange .set toAdd else m
  else m

def mapping (m : Emitted) : Entries := replayed m.log

/-! ### What they do to the map -/

theorem logOne_mapping (op : OpCode) (m : Emitted) (e : CacheEntry) :
    (m.logOne op e).mapping = apply m.mapping ⟨m.revision + 1, op, e⟩ := by
  simp [mapping, logOne, replayed, replay]

/-- Where a change of the opcode makes an address hold `v`, a list of them makes its addresses do so. -/
theorem logChange_lookup {op : OpCode} {ip : String} {v : Option CacheEntry}
    (hop : ∀ (m : Entries) revision a,
      (apply m ⟨revision, op, entryOf key a⟩).lookup ip = if ip = a then v else m.lookup ip) (m : Emitted)
    (ips : List String) :
    (m.logChange op (ips.map (entryOf key))).mapping.lookup ip = if ip ∈ ips then v else m.mapping.lookup ip := by
  induction ips generalizing m with
  | nil => simp [logChange]
  | cons a ips ih =>
    have hrec := ih (m.logOne op (entryOf key a))
    rw [logOne_mapping, hop] at hrec
    simp only [logChange, List.map_cons, List.foldl_cons] at hrec ⊢
    rw [hrec]
    by_cases hip : ip ∈ ips
    · simp [hip]
    · simp [hip]

theorem logChange_set (m : Emitted) (key : PodKey) (ips : List String) (ip : String) :
    (m.logChange .set (ips.map (entryOf key))).mapping.lookup ip =
      if ip ∈ ips then some (entryOf key ip) else m.mapping.lookup ip := by
  refine logChange_lookup (fun m revision a => ?_) m ips
  by_cases ha : ip = a
  · subst ha
    simp [apply, entryOf]
  · simp [ha, apply, entryOf]

theorem logChange_del (m : Emitted) (key : PodKey) (ips : List String) (ip : String) :
    (m.logChange .del (ips.map (entryOf key))).mapping.lookup ip =
      if ip ∈ ips then none else m.mapping.lookup ip := by
  refine logChange_lookup (fun m revision a => ?_) m ips
  by_cases ha : ip = a
  · subst ha
    simp [apply, entryOf]
  · simp [ha, apply, entryOf]

theorem onAddPod_lookup (m : Emitted) (pod : Pod) (ip : String) :
    (m.onAddPod pod).mapping.lookup ip =
      if ip ∈ pod.addresses then some (entryOf pod.key ip) else m.mapping.lookup ip := by
  rw [← logChange_set]
  simp only [onAddPod]
  split
  · rfl
  · rename_i h
    have hnil : createCacheEntries4Pod pod = [] := by simpa using h
    rw [show pod.addresses.map (entryOf pod.key) = [] from hnil]
    rfl

theorem onDeletePod_lookup (m : Emitted) (pod : Pod) (ip : String) :
    (m.onDeletePod pod).mapping.lookup ip = if ip ∈ pod.addresses then none else m.mapping.lookup ip := by
  rw [← logChange_del m pod.key]
  simp only [onDeletePod]
  split
  · rename_i h
    have hnil : createCacheEntries4Pod pod = [] := by simpa using h
    rw [show pod.addresses.map (entryOf pod.key) = [] from hnil]
    rfl
  · rfl

theorem onUpdatePod_eq (m : Emitted) (old new : Pod) :
    m.onUpdatePod old new = if changes old new then (m.onDeletePod old).onAddPod new else m := by
  have hdel : (if 0 < (createCacheEntries4Pod old).length then m.logChange .del (createCacheEntries4Pod old) else m) =
      m.onDeletePod old := by
    simp only [onDeletePod]
    by_cases h : 0 < (createCacheEntries4Pod old).length
    · rw [if_pos h, if_neg (by omega)]
    · rw [if_neg h, if_pos (by omega)]
  unfold onUpdatePod
  split
  · simp only [hdel]
    rfl
  · rfl

end Emitted

/-! ## The informer's events -/

structure Cluster where
  /-- The informer's store. -/
  live : PodKey → Option Pod
  emitted : Emitted
  /-- Ghost: the pod an address was given to last. -/
  assigned : String → Option PodKey

inductive PodEvent where
  | add (pod : Pod)
  /-- A newer version of the pod, or a resync with the one handled last. -/
  | update (key : PodKey) (resourceVersion : String) (status : PodStatus)
  /-- With the pod's last state, which may not have been handled before. -/
  | delete (key : PodKey) (status : PodStatus)

namespace Cluster

def init : Cluster := ⟨fun _ => none, ⟨0, []⟩, fun _ => none⟩

def added (s : Cluster) (pod : Pod) : Cluster where
  live := Function.update s.live pod.key (some pod)
  emitted := s.emitted.onAddPod pod
  assigned ip := if ip ∈ pod.addresses then some pod.key else s.assigned ip

def updated (s : Cluster) (key : PodKey) (old new : Pod) : Cluster where
  live := Function.update s.live key (some new)
  emitted := s.emitted.onUpdatePod old new
  assigned ip := if ip ∈ new.addresses ∧ ip ∉ old.addresses then some key else s.assigned ip

def deleted (s : Cluster) (key : PodKey) (pod : Pod) : Cluster :=
  { s with live := Function.update s.live key none, emitted := s.emitted.onDeletePod pod }

end Cluster

/-- The object an update comes with: the same one where the version is. -/
def Pod.version (old : Pod) (resourceVersion : String) (status : PodStatus) : Pod :=
  if resourceVersion = old.resourceVersion then old
  else { old with resourceVersion := resourceVersion, status := status }

variable {s : Cluster}

namespace Cluster

def step (s : Cluster) : PodEvent → Unit × Cluster
  | .add pod => ((), if (s.live pod.key).isNone then s.added pod else s)
  | .update key resourceVersion status =>
    ((), match s.live key with
      | some old => s.updated key old (old.version resourceVersion status)
      | none => s)
  | .delete key status =>
    ((), match s.live key with
      | some old => s.deleted key { old with status := status }
      | none => s)

/-- The address was given to the pod last, and the pod is live and has it. -/
def Owns (s : Cluster) (key : PodKey) (ip : String) : Prop :=
  s.assigned ip = some key ∧ ∃ pod, s.live key = some pod ∧ ip ∈ pod.addresses

/-- The map leads every address to its owner. -/
def Exact (s : Cluster) : Prop := ∀ ip key, s.Owns key ip → s.emitted.mapping.lookup ip = some (entryOf key ip)

def OwnAddresses (s : Cluster) (key : PodKey) (ips : List String) : Prop :=
  ∀ ip ∈ ips, ∀ other, s.Owns other ip → other = key

/-- The event takes no address from its owner. -/
def Clean (s : Cluster) : PodEvent → Prop
  | .add _ => True
  | .update key resourceVersion status =>
    ∀ old, s.live key = some old → Emitted.changes old (old.version resourceVersion status) = true →
      s.OwnAddresses key old.addresses
  | .delete key status =>
    ∀ old, s.live key = some old → s.OwnAddresses key ({ old with status := status } : Pod).addresses

structure Inv (s : Cluster) : Prop where
  keyed : ∀ key pod, s.live key = some pod → pod.key = key
  exact_ : s.Exact

theorem init_inv : init.Inv where
  keyed _ _ h := by cases h
  exact_ _ _ h := by cases h.1

theorem added_inv (hi : s.Inv) (pod : Pod) : (s.added pod).Inv := by
  constructor
  · intro key p hp
    by_cases hk : key = pod.key
    · subst hk
      simp only [added, Function.update_self, Option.some.injEq] at hp
      rw [← hp]
    · exact hi.keyed key p (by simpa [added, Function.update_of_ne hk] using hp)
  · rintro ip key ⟨ha, p, hp, hip⟩
    show (s.emitted.onAddPod pod).mapping.lookup ip = _
    rw [Emitted.onAddPod_lookup]
    simp only [added] at ha hp
    by_cases hin : ip ∈ pod.addresses
    · rw [if_pos hin] at ha ⊢
      rw [Option.some.inj ha]
    · rw [if_neg hin] at ha ⊢
      by_cases hk : key = pod.key
      · subst hk
        rw [Function.update_self] at hp
        cases hp
        exact absurd hip hin
      · rw [Function.update_of_ne hk] at hp
        exact hi.exact_ ip key ⟨ha, p, hp, hip⟩

theorem entryOf_inj {key' : PodKey} {ip : String} (h : entryOf key ip = entryOf key' ip) : key = key' := by
  cases key
  cases key'
  simpa [entryOf] using h

theorem version_key (old : Pod) (rv : String) (st : PodStatus) : (old.version rv st).key = old.key := by
  unfold Pod.version
  split
  · rfl
  · rfl

/-- An update that does not act leaves the addresses as they were. -/
theorem version_addresses {old : Pod} {rv : String} {st : PodStatus}
    (h : Emitted.changes old (old.version rv st) = false) : (old.version rv st).addresses = old.addresses := by
  unfold Emitted.changes at h
  unfold Pod.version at h ⊢
  by_cases hrv : rv = old.resourceVersion
  · rw [if_pos hrv]
  · rw [if_neg hrv] at h ⊢
    have heq : allPodIPs old = allPodIPs { old with resourceVersion := rv, status := st } := by
      by_contra hne
      simp [hrv, hne] at h
    unfold Pod.addresses
    rw [heq]

theorem updated_inv (hi : s.Inv) {old : Pod} (hold : s.live key = some old) (rv : String) (st : PodStatus)
    (hclean : Emitted.changes old (old.version rv st) = true → s.OwnAddresses key old.addresses) :
    (s.updated key old (old.version rv st)).Inv := by
  have hkey : (old.version rv st).key = key := (version_key old rv st).trans (hi.keyed key old hold)
  constructor
  · intro key' p hp
    by_cases hk : key' = key
    · subst hk
      simp only [updated, Function.update_self, Option.some.injEq] at hp
      rw [← hp, hkey]
    · exact hi.keyed key' p (by simpa [updated, Function.update_of_ne hk] using hp)
  · rintro ip key' ⟨ha, p, hp, hip⟩
    show (s.emitted.onUpdatePod old (old.version rv st)).mapping.lookup ip = _
    simp only [updated] at ha hp
    rw [Emitted.onUpdatePod_eq]
    by_cases hk : key' = key
    · -- the pod's own address
      subst hk
      rw [Function.update_self] at hp
      cases hp
      by_cases hc : Emitted.changes old (old.version rv st) = true
      · rw [if_pos hc, Emitted.onAddPod_lookup, if_pos hip, hkey]
      · have hsame := version_addresses (by simpa using hc)
        rw [hsame] at hip
        rw [if_neg (fun h => h.2 hip)] at ha
        rw [if_neg hc]
        exact hi.exact_ ip key' ⟨ha, old, hold, hip⟩
    · -- another pod's: neither list may hold it
      rw [Function.update_of_ne hk] at hp
      have hnew : ¬ (ip ∈ (old.version rv st).addresses ∧ ip ∉ old.addresses) := by
        intro h
        rw [if_pos h] at ha
        exact hk (Option.some.inj ha).symm
      rw [if_neg hnew] at ha
      have howns : s.Owns key' ip := ⟨ha, p, hp, hip⟩
      by_cases hc : Emitted.changes old (old.version rv st) = true
      · have hno : ip ∉ old.addresses := fun h => hk (hclean hc ip h key' howns)
        have hno' : ip ∉ (old.version rv st).addresses := fun h => hnew ⟨h, hno⟩
        rw [if_pos hc, Emitted.onAddPod_lookup, if_neg hno', Emitted.onDeletePod_lookup, if_neg hno]
        exact hi.exact_ ip key' howns
      · rw [if_neg hc]
        exact hi.exact_ ip key' howns

theorem deleted_inv (hi : s.Inv) (pod : Pod) (hclean : s.OwnAddresses key pod.addresses) :
    (s.deleted key pod).Inv := by
  constructor
  · intro key' p hp
    by_cases hk : key' = key
    · subst hk
      simp [deleted] at hp
    · exact hi.keyed key' p (by simpa [deleted, Function.update_of_ne hk] using hp)
  · rintro ip key' ⟨ha, p, hp, hip⟩
    show (s.emitted.onDeletePod pod).mapping.lookup ip = _
    simp only [deleted] at hp
    have hk : key' ≠ key := by
      rintro rfl
      simp at hp
    rw [Function.update_of_ne hk] at hp
    have howns : s.Owns key' ip := ⟨ha, p, hp, hip⟩
    rw [Emitted.onDeletePod_lookup, if_neg fun h => hk (hclean ip h key' howns)]
    exact hi.exact_ ip key' howns

theorem step_inv (hi : s.Inv) (ev : PodEvent) (h : s.Clean ev) : (s.step ev).2.Inv := by
  cases ev with
  | add pod =>
    simp only [step]
    split
    · exact added_inv hi pod
    · exact hi
  | update key rv st =>
    simp only [step]
    split
    · rename_i old hold
      exact updated_inv hi hold rv st (h old hold)
    · exact hi
  | delete key st =>
    simp only [step]
    split
    · rename_i old hold
      exact deleted_inv hi _ (h old hold)
    · exact hi

theorem step_breaks (hi : s.Inv) (ev : PodEvent) (h : ¬ s.Clean ev) : ¬ (s.step ev).2.Exact := by
  intro hex
  cases ev with
  | add pod => exact h trivial
  | update key rv st =>
    simp only [Clean, OwnAddresses, not_forall] at h
    obtain ⟨old, hold, hc, ip, hip, other, ⟨ha, p, hp, hpip⟩, hne⟩ := h
    simp only [step, hold] at hex
    have howns : (s.updated key old (old.version rv st)).Owns other ip := by
      refine ⟨?_, p, ?_, hpip⟩
      · simp [updated, hip, ha]
      · simp [updated, Function.update_of_ne hne, hp]
    have hlook := hex ip other howns
    change (s.emitted.onUpdatePod old (old.version rv st)).mapping.lookup ip = _ at hlook
    rw [Emitted.onUpdatePod_eq, if_pos hc, Emitted.onAddPod_lookup, Emitted.onDeletePod_lookup, if_pos hip] at hlook
    split at hlook
    · have hk := entryOf_inj (Option.some.inj hlook)
      rw [version_key, hi.keyed key old hold] at hk
      exact hne hk.symm
    · cases hlook
  | delete key st =>
    simp only [Clean, OwnAddresses, not_forall] at h
    obtain ⟨old, hold, ip, hip, other, ⟨ha, p, hp, hpip⟩, hne⟩ := h
    simp only [step, hold] at hex
    have howns : (s.deleted key { old with status := st }).Owns other ip :=
      ⟨ha, p, by simp [deleted, Function.update_of_ne hne, hp], hpip⟩
    have hlook := hex ip other howns
    change (s.emitted.onDeletePod { old with status := st }).mapping.lookup ip = _ at hlook
    rw [Emitted.onDeletePod_lookup, if_pos hip] at hlook
    cases hlook

end Cluster

/-- In every run of pod events, the map leads every address to the live pod it was given to
    last, in every state, exactly when no event takes an address from its owner. -/
theorem pods_exact_iff (events : List PodEvent) :
    always Cluster.step Cluster.Exact Cluster.init events ↔ along Cluster.step Cluster.Clean Cluster.init events :=
  always_iff_along (I := Cluster.Inv) (fun _ hi => hi.exact_) (fun _ ev hi h => Cluster.step_inv hi ev h)
    (fun _ ev hi h => Cluster.step_breaks hi ev h) Cluster.init_inv events

/-- A new pod has the address before the old one's deletion is handled: the new one's entry
    is gone. -/
theorem a_late_deletion_takes_the_new_owners_entry :
    let status : PodStatus := ⟨some ["10.0.0.1"], "10.0.0.1"⟩
    let old : PodKey := ⟨"default", "web-0"⟩
    let new : PodKey := ⟨"default", "web-1"⟩
    let s := (exec Cluster.step Cluster.init
      [.add ⟨old, "1", false, status⟩, .add ⟨new, "2", false, status⟩, .delete old status]).2
    s.Owns new "10.0.0.1" ∧ s.emitted.mapping.lookup "10.0.0.1" = none := by
  intro status old new s
  refine ⟨⟨by decide +kernel, ⟨new, "2", false, status⟩, by decide +kernel, by decide +kernel⟩, by decide +kernel⟩

end EliteTelemetry.Ipcache
