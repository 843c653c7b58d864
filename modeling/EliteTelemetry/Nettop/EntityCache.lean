/-
  EliteTelemetry.Nettop.EntityCache — which pod a network namespace number stands for
  (`nettop/cache.go`, `nettop/interface.go`).

  `initDefaultEntity` puts the entity of the host under the number of its namespace, for
  ever. A refresh of the topology puts the entity of every pod it finds under the pod's
  number, for 30 s; pods in the host's namespace are left out, and nothing is taken out. A
  number is answered by what was last put under it, until that expires; 0 is answered by the
  host's entity, whatever the cache has. Of the cache, whose keys are the numbers in decimal, only
  `ExpiringApi` is asked.

  `entityAt` says this on the history of the refreshes, and `getEntityByNetns_run` that the
  cache answers so after every run.
-/

import EliteTelemetry.Lib.Caches
import Mathlib.Data.List.Induction

namespace EliteTelemetry.Nettop

open EliteTelemetry.Lib (ExpiringApi live)

structure Entity where
  inum : Nat
  isHostNetwork : Bool
  podNamespace : String
  podName : String
  labels : List (String × String)
  deriving DecidableEq, Repr

def cacheUpdateInterval : Nat := 10000000000

structure State (C : Type) where
  defaultEntity : Entity
  nsCache : C

section Cache

variable {C : Type} (api : ExpiringApi C Nat Entity)

def addEntityToCache (now : Nat) (nsCache : C) (e : Entity) (ignoreHostPod noExpiration : Bool) : C :=
  if ignoreHostPod && e.isHostNetwork then nsCache
  else api.set now e.inum e (if noExpiration then none else some (3 * cacheUpdateInterval)) nsCache

/-! ## The operations -/

def hostEntity (hostNetNSId : Nat) : Option (String × String) → Entity
  | none => ⟨hostNetNSId, true, "", "", []⟩
  | some (podNamespace, podName) => ⟨hostNetNSId, false, podNamespace, podName, []⟩

def initDefaultEntity (now hostNetNSId : Nat) (sidecar : Option (String × String)) : State C :=
  ⟨hostEntity hostNetNSId sidecar, addEntityToCache api now api.new (hostEntity hostNetNSId sidecar) false true⟩

/-- What the runtime says of a sandbox. `netns` is the number read through its process, if
    that could be read. -/
structure SandboxStatus where
  netns : Option Nat
  ip : String

/-- A sandbox and its turn in the loop. `status` is `none` where the runtime gives no status
    or no information on it; `ctxDone` says that time is up before its turn. -/
structure Sandbox where
  podNamespace : String
  podName : String
  labels : List (String × String)
  status : Option SandboxStatus
  ctxDone : Bool
  now : Nat

def Sandbox.entity (sandbox : Sandbox) (defaultEntity : Entity) : Option Entity :=
  match sandbox.status with
  | none => none
  | some status =>
    match status.netns with
    | none => none
    | some netnsNum =>
      if netnsNum = defaultEntity.inum then
        some ⟨defaultEntity.inum, defaultEntity.isHostNetwork, sandbox.podNamespace, sandbox.podName, sandbox.labels⟩
      else if status.ip = "" then none
      else some ⟨netnsNum, false, sandbox.podNamespace, sandbox.podName, sandbox.labels⟩

def cacheSandboxes (defaultEntity : Entity) : List Sandbox → C → C
  | [], nsCache => nsCache
  | sandbox :: rest, nsCache =>
    if sandbox.ctxDone then nsCache
    else
      match sandbox.entity defaultEntity with
      | none => cacheSandboxes defaultEntity rest nsCache
      | some e => cacheSandboxes defaultEntity rest (addEntityToCache api sandbox.now nsCache e true false)

structure LocalPod where
  podNamespace : String
  podName : String
  labels : List (String × String)
  netNSInode : Nat
  isHostNetwork : Bool
  now : Nat

def LocalPod.entity (pod : LocalPod) : Option Entity :=
  if pod.podName = "" ∨ pod.podNamespace = "" then none
  else some ⟨pod.netNSInode, pod.isHostNetwork, pod.podNamespace, pod.podName, pod.labels⟩

def cachePods : List LocalPod → C → C
  | [], nsCache => nsCache
  | pod :: rest, nsCache =>
    match pod.entity with
    | none => cachePods rest nsCache
    | some e => cachePods rest (addEntityToCache api pod.now nsCache e true false)

/-- A refresh of the topology: from the runtime (`none` where it does not list its
    sandboxes), or from the API server. -/
inductive Refresh where
  | cri (sandboxes : Option (List Sandbox))
  | noCri (pods : List LocalPod)

def refresh (st : State C) : Refresh → State C
  | .cri none => st
  | .cri (some sandboxes) => { st with nsCache := cacheSandboxes api st.defaultEntity sandboxes st.nsCache }
  | .noCri pods => { st with nsCache := cachePods api pods st.nsCache }

def run (st : State C) (rs : List Refresh) : State C := rs.foldl (refresh api) st

def getEntityByNetns (st : State C) (now nsinum : Nat) : Option Entity :=
  if nsinum = 0 then some st.defaultEntity else api.get now nsinum st.nsCache

/-! ## The history of a number -/

structure Sighting where
  now : Nat
  entity : Entity
  deriving DecidableEq, Repr

def sandboxSightings (defaultEntity : Entity) (sandboxes : List Sandbox) : List Sighting :=
  (sandboxes.takeWhile (!·.ctxDone)).filterMap fun sandbox => (sandbox.entity defaultEntity).map (⟨sandbox.now, ·⟩)

def podSightings (pods : List LocalPod) : List Sighting :=
  pods.filterMap fun pod => pod.entity.map (⟨pod.now, ·⟩)

def Refresh.sightings (defaultEntity : Entity) : Refresh → List Sighting
  | .cri none => []
  | .cri (some sandboxes) => sandboxSightings defaultEntity sandboxes
  | .noCri pods => podSightings pods

def sightings (defaultEntity : Entity) (rs : List Refresh) : List Sighting :=
  rs.flatMap (·.sightings defaultEntity)

def lastSeen (inum : Nat) (ss : List Sighting) : Option Sighting :=
  (ss.filter fun s => !s.entity.isHostNetwork && s.entity.inum == inum).getLast?

/-- What a number stands for: 0 for the host, any other number for the pod last seen under
    it, for 30 s, and the host's own number for the host where no pod was seen under it. -/
def entityAt (defaultEntity : Entity) (rs : List Refresh) (now inum : Nat) : Option Entity :=
  if inum = 0 then some defaultEntity
  else
    match lastSeen inum (sightings defaultEntity rs) with
    | some s => if now ≤ s.now + 3 * cacheUpdateInterval then some s.entity else none
    | none => if inum = defaultEntity.inum then some defaultEntity else none

def cacheSighting (nsCache : C) (s : Sighting) : C := addEntityToCache api s.now nsCache s.entity true false

theorem cacheSandboxes_eq (defaultEntity : Entity) (sandboxes : List Sandbox) (nsCache : C) :
    cacheSandboxes api defaultEntity sandboxes nsCache =
      (sandboxSightings defaultEntity sandboxes).foldl (cacheSighting api) nsCache := by
  induction sandboxes generalizing nsCache with
  | nil => rfl
  | cons sandbox rest ih =>
    unfold sandboxSightings at ih ⊢
    rw [cacheSandboxes, List.takeWhile_cons]
    cases sandbox.ctxDone with
    | true => rfl
    | false =>
      simp only [Bool.false_eq_true, if_false, Bool.not_false, if_true, List.filterMap_cons]
      cases sandbox.entity defaultEntity with
      | none => exact ih nsCache
      | some e => exact ih _

theorem cachePods_eq (pods : List LocalPod) (nsCache : C) :
    cachePods api pods nsCache = (podSightings pods).foldl (cacheSighting api) nsCache := by
  induction pods generalizing nsCache with
  | nil => rfl
  | cons pod rest ih =>
    unfold podSightings at ih ⊢
    rw [cachePods, List.filterMap_cons]
    cases pod.entity with
    | none => exact ih nsCache
    | some e => exact ih _

theorem refresh_eq (st : State C) (r : Refresh) :
    refresh api st r = { st with nsCache := (r.sightings st.defaultEntity).foldl (cacheSighting api) st.nsCache } := by
  cases r with
  | cri sandboxes =>
    cases sandboxes with
    | none => rfl
    | some sandboxes =>
      rw [refresh, cacheSandboxes_eq]
      rfl
  | noCri pods =>
    rw [refresh, cachePods_eq]
    rfl

/-- A run caches the sightings of its refreshes one after the other. -/
theorem run_eq (st : State C) (rs : List Refresh) :
    run api st rs = { st with nsCache := (sightings st.defaultEntity rs).foldl (cacheSighting api) st.nsCache } := by
  induction rs generalizing st with
  | nil => rfl
  | cons r rs ih =>
    have hstep : run api st (r :: rs) = run api (refresh api st r) rs := rfl
    rw [hstep, ih, refresh_eq, sightings, sightings, List.flatMap_cons, List.foldl_append]

theorem get_cacheSighting (nsCache : C) (s : Sighting) (now inum : Nat) :
    api.get now inum (cacheSighting api nsCache s) =
      if !s.entity.isHostNetwork && s.entity.inum == inum then
        if now ≤ s.now + 3 * cacheUpdateInterval then some s.entity else none
      else api.get now inum nsCache := by
  unfold cacheSighting addEntityToCache
  cases s.entity.isHostNetwork with
  | true => rfl
  | false =>
    by_cases hinum : s.entity.inum = inum
    · subst hinum
      simp [api.get_set_self, live]
    · have hne : (s.entity.inum == inum) = false := beq_eq_false_iff_ne.mpr hinum
      simp [hne, api.get_set_ne _ _ _ _ _ (Ne.symm hinum)]

theorem get_cacheSightings (nsCache : C) (ss : List Sighting) (now inum : Nat) :
    api.get now inum (ss.foldl (cacheSighting api) nsCache) =
      match lastSeen inum ss with
      | some s => if now ≤ s.now + 3 * cacheUpdateInterval then some s.entity else none
      | none => api.get now inum nsCache := by
  induction ss using List.reverseRecOn with
  | nil => rfl
  | append_singleton ss s ih =>
    rw [List.foldl_append, List.foldl_cons, List.foldl_nil, get_cacheSighting, ih]
    unfold lastSeen
    rw [List.filter_append, List.filter_singleton]
    cases !s.entity.isHostNetwork && s.entity.inum == inum with
    | true => simp
    | false => simp

theorem get_initDefaultEntity (start hostNetNSId : Nat) (sidecar : Option (String × String)) (now inum : Nat) :
    api.get now inum (initDefaultEntity api start hostNetNSId sidecar).nsCache =
      if inum = (hostEntity hostNetNSId sidecar).inum then some (hostEntity hostNetNSId sidecar) else none := by
  by_cases h : inum = (hostEntity hostNetNSId sidecar).inum
  · rw [if_pos h, h]
    exact api.get_set_self _ _ _ _ _ _
  · rw [if_neg h]
    exact (api.get_set_ne _ _ _ _ _ h).trans (api.get_new _ _)

theorem getEntityByNetns_run (start hostNetNSId : Nat) (sidecar : Option (String × String)) (rs : List Refresh)
    (now inum : Nat) :
    getEntityByNetns api (run api (initDefaultEntity api start hostNetNSId sidecar) rs) now inum =
      entityAt (hostEntity hostNetNSId sidecar) rs now inum := by
  rw [run_eq]
  unfold getEntityByNetns entityAt
  dsimp only
  rw [get_cacheSightings, get_initDefaultEntity]
  rfl

end Cache

end EliteTelemetry.Nettop
