/-
  EliteTelemetry.Controller.Capture — packet captures on several pods and nodes (`Capture` and
  `storeCaptureResult` of `pkg/controller/service/capture.go`, `commitTask` of `agent.go`, and
  what `ProcessCapture` of `pkg/exporter/task-agent/capture.go` uploads).

  `Capture` gives one task to an agent for each item of the request, all under one id, and ends
  with an error at the first that no agent takes. When all are given out it stores the list of
  their results. An upload loads the list of its id and sets the status of every entry whose name
  it bears. The steps of `Capture` and of all uploads come in any order, and after an hour the
  list is deleted.

  An upload that comes before the list is stored changes nothing. A node's upload is also taken
  for one of a pod of the same name, and of a node that is listed twice under different
  namespaces. And the error of a later item leaves the tasks of the earlier ones behind. In the
  runs without these three, and in no others, each entry has at any time the status its own
  upload has given it, and no task is given out by a `Capture` that fails (`capture_tracks_iff`).
-/

import EliteTelemetry.Lib.Fallible
import EliteTelemetry.Lib.Machine

namespace EliteTelemetry.Controller.Capture

open EliteTelemetry.Lib.Fallible
open EliteTelemetry.Lib.Machine

/-! ## Tasks and their results -/

def typePod : String := "Pod"
def typeNode : String := "Node"

inductive TaskType where
  | ping
  | capture
  deriving DecidableEq, Repr

@[ext] structure Item where
  type : String
  name : String
  ns : String
  deriving DecidableEq, Repr

structure CaptureArgs where
  captureList : List Item
  captureDurationSeconds : Int
  filter : String

structure PodInfo where
  name : String
  ns : String
  hostNetwork : Bool
  deriving DecidableEq, Repr

structure NodeInfo where
  name : String
  deriving DecidableEq, Repr

structure CaptureInfo where
  pod : Option PodInfo
  node : NodeInfo
  captureType : String
  captureDurationSeconds : BitVec 32
  filter : String
  typed : captureType = if pod.isSome then typePod else typeNode

structure Pod where
  phase : String
  hostNetwork : Bool
  nodeName : String

/-- `getPodInfo`, without the address; `pods` is the client's `Get`. -/
def getPodInfo (pods : String → String → Except String Pod) (podNamespace podName : String) :
    Except String (PodInfo × NodeInfo) :=
  match pods podNamespace podName with
  | .error err => .error ("get pod " ++ podNamespace ++ "/" ++ podName ++ " failed: " ++ err)
  | .ok p =>
    if p.phase ≠ "Running" then .error ("pod " ++ podNamespace ++ "/" ++ podName ++ " is not running")
    else .ok (⟨podName, podNamespace, p.hostNetwork⟩, ⟨p.nodeName⟩)

def captureInfo (pods : String → String → Except String Pod) (args : CaptureArgs) (item : Item) :
    Except String CaptureInfo :=
  if item.type = typePod then
    match getPodInfo pods item.ns item.name with
    | .error err => .error err
    | .ok (pod, node) => .ok ⟨some pod, node, typePod, BitVec.ofInt 32 args.captureDurationSeconds, args.filter, rfl⟩
  else if item.type = typeNode then
    .ok ⟨none, ⟨item.name⟩, typeNode, BitVec.ofInt 32 args.captureDurationSeconds, args.filter, rfl⟩
  else .error ("invalid capture type: " ++ item.type)

def tasksToCommit (pods : String → String → Except String Pod) (args : CaptureArgs) : Except String (List CaptureInfo) :=
  args.captureList.mapM (captureInfo pods args)

structure TaskFilter where
  nodeName : String
  type : List TaskType

def commitTask (taskWatcher : List TaskFilter) (node : String) (type : TaskType) : Option TaskFilter :=
  taskWatcher.find? fun filter => filter.nodeName = node ∧ filter.type.foldl (fun acc t => acc || t = type) false

structure TaskSpec where
  taskType : String
  name : String
  ns : String
  deriving DecidableEq, Repr

inductive Status where
  | running
  | success
  | failed
  deriving DecidableEq, Repr

structure CaptureTaskResult where
  taskID : Nat
  spec : TaskSpec
  status : Status
  result : String
  message : String
  deriving DecidableEq, Repr

def taskSpec (info : CaptureInfo) : TaskSpec :=
  if info.captureType = typePod then
    ⟨info.captureType, (info.pod.map PodInfo.name).getD "", (info.pod.map PodInfo.ns).getD ""⟩
  else ⟨info.captureType, info.node.name, ""⟩

def newResult (id : Nat) (info : CaptureInfo) : CaptureTaskResult := ⟨id, taskSpec info, .running, "", ""⟩

structure TaskResult where
  id : Nat
  type : TaskType
  success : Bool
  message : String
  task : CaptureInfo
  fileType : String

/-- What `ProcessCapture` uploads; `outcome` is the file type of the capture, or why there is
    none. -/
def processCapture (id : Nat) (task : CaptureInfo) (outcome : Except String String) : TaskResult :=
  match outcome with
  | .error err => ⟨id, .capture, false, "failed to run command: " ++ err, task, ""⟩
  | .ok fileType => ⟨id, .capture, true, "success", task, fileType⟩

def matchesSpec (task : CaptureInfo) (spec : TaskSpec) : Bool :=
  match task.pod with
  | some pod => pod.ns == spec.ns && pod.name == spec.name
  | none => task.node.name == spec.name

def storeCaptureFile (spec : TaskSpec) (id : Nat) (fileType : String) (fault : Option String) : Except String String :=
  match fault with
  | some err => .error err
  | none =>
    .ok ("capture_task_" ++ toString id ++ "_" ++ (if spec.taskType = typePod then spec.ns else "node") ++ "_" ++
      spec.name ++ "." ++ fileType)

def TaskResult.status (r : TaskResult) : Status := if r.success then .success else .failed

/-- The body of the loop of `storeCaptureResult` for an entry that matches: the entry after it,
    and the error it ends the loop with. -/
def storeEntry (r : TaskResult) (fault : Option String) (entry : CaptureTaskResult) : CaptureTaskResult × Option String :=
  if r.success then
    match storeCaptureFile entry.spec r.id r.fileType fault with
    | .error err => ({ entry with message := r.message, status := .success }, some ("store capture file failed: " ++ err))
    | .ok file => ({ entry with message := r.message, status := .success, result := file }, none)
  else ({ entry with message := r.message, status := .failed }, none)

theorem taskSpec_of_pod {info : CaptureInfo} {pod : PodInfo} (h : info.pod = some pod) :
    taskSpec info = ⟨typePod, pod.name, pod.ns⟩ := by
  have htyped : info.captureType = typePod := by simpa [h] using info.typed
  simp [taskSpec, htyped, h]

theorem taskSpec_of_node {info : CaptureInfo} (h : info.pod = none) : taskSpec info = ⟨typeNode, info.node.name, ""⟩ := by
  have htyped : info.captureType = typeNode := by simpa [h] using info.typed
  simp [taskSpec, htyped, show typeNode ≠ typePod by decide]

theorem matchesSpec_self (info : CaptureInfo) : matchesSpec info (taskSpec info) = true := by
  cases hpod : info.pod with
  | none => simp [matchesSpec, hpod, taskSpec_of_node hpod]
  | some pod => simp [matchesSpec, hpod, taskSpec_of_pod hpod]

theorem storeEntry_status (r : TaskResult) (fault : Option String) (entry : CaptureTaskResult) :
    (storeEntry r fault entry).1.status = r.status := by
  unfold storeEntry TaskResult.status
  cases r.success with
  | false => rfl
  | true =>
    simp only [if_true]
    split <;> rfl

theorem storeEntry_spec (r : TaskResult) (fault : Option String) (entry : CaptureTaskResult) :
    (storeEntry r fault entry).1.spec = entry.spec := by
  unfold storeEntry
  cases r.success with
  | false => rfl
  | true =>
    simp only [if_true]
    split <;> rfl

theorem storeEntry_fails_iff (r : TaskResult) (fault : Option String) (entry : CaptureTaskResult) :
    (storeEntry r fault entry).2.isSome = true ↔ r.success = true ∧ fault.isSome = true := by
  unfold storeEntry storeCaptureFile
  cases r.success with
  | false => simp
  | true => cases fault <;> simp

theorem status_ne_running (r : TaskResult) : r.status ≠ .running := by
  unfold TaskResult.status
  cases r.success <;> simp

/-! ## The run of a request -/

inductive Upload where
  | idle
  /-- It is about to look at this entry of the list. -/
  | storing (r : TaskResult) (next : Nat)
  /-- It has answered with success, or with this error. -/
  | ended (r : TaskResult) (err : Option String)

def Upload.result : Upload → Option TaskResult
  | .idle => none
  | .storing r _ => some r
  | .ended r _ => some r

/-- The status that an upload which changes entry `j` and no other has given it so far. -/
def Upload.gives (j : Nat) : Upload → Status
  | .idle => .running
  | .storing r next => if j < next then r.status else .running
  | .ended r _ => r.status

/-- Tasks are numbered as they are given out, and the uploads as their tasks. -/
structure State where
  tasksToCommit : List CaptureInfo
  committed : List CaptureInfo
  resultList : List CaptureTaskResult
  returned : Option (Except String Nat)
  /-- The list is in `captureTasks`. -/
  stored : Bool
  uploads : Nat → Upload

inductive Event where
  /-- `Capture` comes to the next task, with these agents watching. -/
  | commit (taskWatcher : List TaskFilter)
  | store
  /-- `cleanupExpiredCaptureTasks`. -/
  | expire
  /-- The agent of the task uploads, and its upload loads the list. -/
  | upload (k : Nat) (outcome : Except String String)
  /-- The upload goes through one entry. -/
  | visit (k : Nat) (fault : Option String)

namespace State

def start (pods : String → String → Except String Pod) (args : CaptureArgs) : State :=
  match Capture.tasksToCommit pods args with
  | .error err => ⟨[], [], [], some (.error err), false, fun _ => .idle⟩
  | .ok infos => ⟨infos, [], [], none, false, fun _ => .idle⟩

def setUpload (s : State) (k : Nat) (u : Upload) : State := { s with uploads := Function.update s.uploads k u }

def commit (id : Nat) (s : State) (taskWatcher : List TaskFilter) : State :=
  match s.returned, s.tasksToCommit with
  | none, info :: rest =>
    match commitTask taskWatcher info.node.name .capture with
    | some _ =>
      { s with
        tasksToCommit := rest
        committed := s.committed ++ [info]
        resultList := s.resultList ++ [newResult id info] }
    | none => { s with returned := some (.error "there is no client to process task") }
  | _, _ => s

def store (id : Nat) (s : State) : State :=
  match s.returned, s.tasksToCommit with
  | none, [] => { s with stored := true, returned := some (.ok id) }
  | _, _ => s

def upload (id : Nat) (s : State) (k : Nat) (outcome : Except String String) : State :=
  match s.uploads k, s.committed[k]? with
  | .idle, some task =>
    if s.stored then s.setUpload k (.storing (processCapture id task outcome) 0)
    else s.setUpload k (.ended (processCapture id task outcome) none)
  | _, _ => s

def visit (s : State) (k : Nat) (fault : Option String) : State :=
  match s.uploads k with
  | .storing r next =>
    match s.resultList[next]? with
    | none => s.setUpload k (.ended r none)
    | some entry =>
      if matchesSpec r.task entry.spec then
        match storeEntry r fault entry with
        | (entry', some err) => { s with resultList := s.resultList.set next entry' }.setUpload k (.ended r (some err))
        | (entry', none) => { s with resultList := s.resultList.set next entry' }.setUpload k (.storing r (next + 1))
      else s.setUpload k (.storing r (next + 1))
  | _ => s

/-- One step; an event that is not enabled changes nothing. -/
def step (id : Nat) (s : State) : Event → Unit × State
  | .commit taskWatcher => ((), s.commit id taskWatcher)
  | .store => ((), s.store id)
  | .expire => ((), { s with stored := false })
  | .upload k outcome => ((), s.upload id k outcome)
  | .visit k fault => ((), s.visit k fault)

/-! ## The visits -/

section Visit

variable {s : State} {k j : Nat} {fault : Option String} {r : TaskResult} {entry : CaptureTaskResult}

theorem visit_of_not_storing (h : ∀ r j, s.uploads k ≠ .storing r j) : s.visit k fault = s := by
  unfold visit
  split
  · rename_i r j hk
    exact absurd hk (h r j)
  · rfl

theorem visit_end (hk : s.uploads k = .storing r j) (hj : s.resultList[j]? = none) :
    s.visit k fault = s.setUpload k (.ended r none) := by
  simp only [visit, hk, hj]

theorem visit_other (hk : s.uploads k = .storing r j) (hj : s.resultList[j]? = some entry)
    (hmatches : matchesSpec r.task entry.spec = false) : s.visit k fault = s.setUpload k (.storing r (j + 1)) := by
  simp [visit, hk, hj, hmatches]

def next (r : TaskResult) (j : Nat) : Option String → Upload
  | some err => .ended r (some err)
  | none => .storing r (j + 1)

theorem visit_match (hk : s.uploads k = .storing r j) (hj : s.resultList[j]? = some entry)
    (hmatches : matchesSpec r.task entry.spec = true) :
    s.visit k fault = setUpload { s with resultList := s.resultList.set j (storeEntry r fault entry).1 } k
      (next r j (storeEntry r fault entry).2) := by
  cases hstore : storeEntry r fault entry with
  | mk entry' err => cases err <;> simp [visit, hk, hj, hmatches, hstore, next]

theorem next_result (err : Option String) : (next r j err).result = some r := by
  cases err <;> rfl

end Visit

/-! ## What each step keeps -/

structure Sound (s : State) : Prop where
  specs : s.resultList.map CaptureTaskResult.spec = s.committed.map taskSpec
  task : ∀ k r, (s.uploads k).result = some r → s.committed[k]? = some r.task

theorem Sound.length {s : State} (hs : s.Sound) : s.resultList.length = s.committed.length := by
  simpa using congrArg List.length hs.specs

theorem Sound.matches_own {s : State} (hs : s.Sound) {k : Nat} {r : TaskResult} {entry : CaptureTaskResult}
    (hr : (s.uploads k).result = some r) (hentry : s.resultList[k]? = some entry) :
    matchesSpec r.task entry.spec = true := by
  have hspec : (s.resultList.map CaptureTaskResult.spec)[k]? = (s.committed.map taskSpec)[k]? := by rw [hs.specs]
  rw [List.getElem?_map, List.getElem?_map, hentry, hs.task k r hr] at hspec
  rw [Option.some.inj hspec]
  exact matchesSpec_self r.task

theorem Sound.entry {s : State} (hs : s.Sound) {k : Nat} {r : TaskResult} (hr : (s.uploads k).result = some r) :
    ∃ entry, s.resultList[k]? = some entry := by
  obtain ⟨hlt, -⟩ := List.getElem?_eq_some_iff.mp (hs.task k r hr)
  rw [← hs.length] at hlt
  exact ⟨_, List.getElem?_eq_getElem hlt⟩

theorem Sound.gives_of_le {s : State} (hs : s.Sound) {k : Nat} (hk : s.resultList.length ≤ k) :
    (s.uploads k).gives k = .running := by
  have hnone : ∀ r, (s.uploads k).result ≠ some r := by
    intro r hr
    obtain ⟨entry, hentry⟩ := hs.entry hr
    exact absurd (List.getElem?_eq_some_iff.mp hentry).1 (by omega)
  cases hu : s.uploads k with
  | idle => rfl
  | storing r next => exact absurd (by rw [hu]; rfl) (hnone r)
  | ended r err => exact absurd (by rw [hu]; rfl) (hnone r)

/-- Each entry has the status its own upload has given it, and a `Capture` that has failed has
    given out no task. -/
structure Tracks (s : State) : Prop where
  entries : ∀ j entry, s.resultList[j]? = some entry → entry.status = (s.uploads j).gives j
  failed : ∀ err, s.returned = some (.error err) → s.committed = []

def FailsFirst (s : State) (taskWatcher : List TaskFilter) : Prop :=
  ∀ info rest, s.returned = none → s.tasksToCommit = info :: rest →
    commitTask taskWatcher info.node.name .capture = none → s.committed = []

def FindsList (s : State) (k : Nat) : Prop :=
  ∀ task, s.uploads k = .idle → s.committed[k]? = some task → s.stored = true

/-- The entry the upload comes to does not bear its name, or is its own, or has the status it
    is given. If there is a file then and it cannot be stored, the upload has passed its own entry. -/
def Passes (s : State) (k : Nat) (fault : Option String) : Prop :=
  ∀ r j entry, s.uploads k = .storing r j → s.resultList[j]? = some entry → j ≠ k →
    matchesSpec r.task entry.spec = true →
      entry.status = r.status ∧ (r.success = true ∧ fault.isSome = true → k < j)

def Orderly (s : State) : Event → Prop
  | .commit taskWatcher => s.FailsFirst taskWatcher
  | .upload k _ => s.FindsList k
  | .visit k fault => s.Passes k fault
  | .store => True
  | .expire => True

theorem commit_sound (id : Nat) {s : State} (hs : s.Sound) (taskWatcher : List TaskFilter) :
    (s.commit id taskWatcher).Sound := by
  unfold commit
  split
  · rename_i info rest _ _
    split
    · refine ⟨by simp [hs.specs, newResult], fun k r hr => ?_⟩
      have hk := hs.task k r hr
      obtain ⟨hlt, -⟩ := List.getElem?_eq_some_iff.mp hk
      exact (List.getElem?_append_left hlt).trans hk
    · exact ⟨hs.specs, hs.task⟩
  · exact hs

theorem setUpload_sound {s : State} (hs : s.Sound) {k : Nat} {u : Upload}
    (hu : ∀ r, u.result = some r → s.committed[k]? = some r.task) : (s.setUpload k u).Sound := by
  refine ⟨hs.specs, fun j r hr => ?_⟩
  by_cases hj : j = k
  · subst hj
    exact hu r (by simpa [setUpload] using hr)
  · exact hs.task j r (by simpa [setUpload, hj] using hr)

theorem upload_sound (id : Nat) {s : State} (hs : s.Sound) (k : Nat) (outcome : Except String String) :
    (s.upload id k outcome).Sound := by
  have htask : ∀ task, (processCapture id task outcome).task = task := by
    intro task
    cases outcome <;> rfl
  unfold upload
  split
  · rename_i task _ hk
    split
    · refine setUpload_sound hs fun r hr => ?_
      obtain rfl := Option.some.inj hr
      rw [hk, htask]
    · refine setUpload_sound hs fun r hr => ?_
      obtain rfl := Option.some.inj hr
      rw [hk, htask]
  · exact hs

theorem set_sound {s : State} (hs : s.Sound) {j : Nat} {entry entry' : CaptureTaskResult}
    (hj : s.resultList[j]? = some entry) (hspec : entry'.spec = entry.spec) :
    State.Sound { s with resultList := s.resultList.set j entry' } := by
  refine ⟨?_, hs.task⟩
  show (s.resultList.set j entry').map CaptureTaskResult.spec = _
  rw [List.map_set, hspec, ← hs.specs]
  refine List.ext_getElem? fun i => ?_
  rw [List.getElem?_set, List.length_map]
  split
  · rename_i hij
    subst hij
    rw [if_pos (List.getElem?_eq_some_iff.mp hj).1, List.getElem?_map, hj]
    rfl
  · rfl

theorem visit_sound {s : State} (hs : s.Sound) (k : Nat) (fault : Option String) : (s.visit k fault).Sound := by
  cases hk : s.uploads k with
  | idle => rwa [visit_of_not_storing (by simp [hk])]
  | ended r err => rwa [visit_of_not_storing (by simp [hk])]
  | storing r j =>
    have htask : ∀ u : Upload, u.result = some r → ∀ r', u.result = some r' → s.committed[k]? = some r'.task := by
      intro u hu r' hr'
      exact hs.task k r' (by rw [hk, ← hr', hu]; rfl)
    cases hj : s.resultList[j]? with
    | none =>
      rw [visit_end hk hj]
      exact setUpload_sound hs (htask _ rfl)
    | some entry =>
      cases hmatches : matchesSpec r.task entry.spec with
      | false =>
        rw [visit_other hk hj hmatches]
        exact setUpload_sound hs (htask _ rfl)
      | true =>
        rw [visit_match hk hj hmatches]
        exact setUpload_sound (set_sound hs hj (storeEntry_spec r fault entry)) (htask _ (next_result _))

/-! ## Which steps keep the statuses right -/

theorem commit_tracks_iff (id : Nat) {s : State} (hs : s.Sound) (ht : s.Tracks) (taskWatcher : List TaskFilter) :
    (s.commit id taskWatcher).Tracks ↔ s.FailsFirst taskWatcher := by
  unfold commit
  split
  · rename_i info rest hreturned htasks
    split
    · rename_i filter hsome
      refine ⟨fun _ info' rest' _ htasks' hnone => ?_, fun _ => ⟨fun j entry hj => ?_, fun err herr => ?_⟩⟩
      · obtain ⟨rfl, rfl⟩ := List.cons.inj (htasks.symm.trans htasks')
        cases hsome.symm.trans hnone
      · rw [List.getElem?_append] at hj
        split at hj
        · exact ht.entries j entry hj
        · -- No upload has come for a task that was just given out.
          rename_i hle
          obtain ⟨-, rfl⟩ : j - s.resultList.length = 0 ∧ newResult id info = entry := by
            simpa [List.getElem?_singleton] using hj
          exact (hs.gives_of_le (by omega)).symm
      · cases hreturned.symm.trans herr
    · rename_i hnone
      refine ⟨fun h _ _ _ _ _ => h.failed _ rfl, fun h => ⟨ht.entries, fun _ _ => ?_⟩⟩
      exact h info rest hreturned htasks hnone
  · rename_i hdisabled
    refine ⟨fun _ info rest hreturned htasks => ?_, fun _ => ht⟩
    exact absurd htasks (hdisabled info rest hreturned)

theorem setUpload_tracks_iff {s : State} (ht : s.Tracks) {k : Nat} {entry : CaptureTaskResult}
    (hk : s.resultList[k]? = some entry) (u : Upload) : (s.setUpload k u).Tracks ↔ entry.status = u.gives k := by
  refine ⟨fun h => ?_, fun h => ⟨fun j entry' hj => ?_, ht.failed⟩⟩
  · simpa [setUpload] using h.entries k entry hk
  · by_cases hjk : j = k
    · subst hjk
      obtain rfl := Option.some.inj (hk.symm.trans hj)
      simpa [setUpload] using h
    · simpa [setUpload, hjk] using ht.entries j entry' hj

theorem own_tracks {s : State} (ht : s.Tracks) {k : Nat} {entry' : CaptureTaskResult} {u : Upload}
    (h : entry'.status = u.gives k) :
    (State.setUpload { s with resultList := s.resultList.set k entry' } k u).Tracks := by
  refine ⟨fun i x hi => ?_, ht.failed⟩
  by_cases hik : i = k
  · subst hik
    have hlt := (List.getElem?_eq_some_iff.mp hi).1
    obtain rfl := Option.some.inj ((List.getElem?_set_self (by simpa [setUpload] using hlt)).symm.trans hi)
    simpa [setUpload] using h
  · have hold := ht.entries i x ((List.getElem?_set_ne (Ne.symm hik)).symm.trans hi)
    simpa [setUpload, hik] using hold

theorem other_tracks_iff {s : State} (ht : s.Tracks) {j k : Nat} (hjk : j ≠ k) {entry entry' own : CaptureTaskResult}
    (hj : s.resultList[j]? = some entry) (hk : s.resultList[k]? = some own) (u : Upload) :
    (State.setUpload { s with resultList := s.resultList.set j entry' } k u).Tracks ↔
      entry'.status = entry.status ∧ own.status = u.gives k := by
  have hlt := (List.getElem?_eq_some_iff.mp hj).1
  refine ⟨fun h => ⟨?_, ?_⟩, fun ⟨hsame, hown⟩ => ⟨fun i x hi => ?_, ht.failed⟩⟩
  · have hnew := h.entries j entry' (List.getElem?_set_self hlt)
    rw [ht.entries j entry hj]
    simpa [setUpload, hjk] using hnew
  · simpa [setUpload] using h.entries k own ((List.getElem?_set_ne hjk).trans hk)
  · by_cases hij : i = j
    · subst hij
      obtain rfl := Option.some.inj ((List.getElem?_set_self hlt).symm.trans hi)
      simpa [setUpload, hjk] using hsame.trans (ht.entries i entry hj)
    · have hold : s.resultList[i]? = some x := (List.getElem?_set_ne (Ne.symm hij)).symm.trans hi
      by_cases hik : i = k
      · subst hik
        obtain rfl := Option.some.inj (hk.symm.trans hold)
        simpa [setUpload] using hown
      · simpa [setUpload, hik] using ht.entries i x hold

theorem upload_tracks_iff (id : Nat) {s : State} (hs : s.Sound) (ht : s.Tracks) (k : Nat)
    (outcome : Except String String) : (s.upload id k outcome).Tracks ↔ s.FindsList k := by
  unfold upload
  split
  · rename_i task hidle hk
    have hlt : k < s.resultList.length := by
      rw [hs.length]
      exact (List.getElem?_eq_some_iff.mp hk).1
    have hentry := List.getElem?_eq_getElem hlt
    have hrunning : s.resultList[k].status = .running := by
      rw [ht.entries k _ hentry, hidle]
      rfl
    split
    · rename_i hstored
      rw [setUpload_tracks_iff ht hentry]
      exact ⟨fun _ _ _ _ => hstored, fun _ => hrunning⟩
    · rename_i hstored
      rw [setUpload_tracks_iff ht hentry, hrunning]
      refine ⟨fun h => absurd h.symm (status_ne_running _), fun h => absurd (h task hidle hk) hstored⟩
  · rename_i hdisabled
    exact ⟨fun _ task hidle hk => absurd hk (hdisabled task hidle), fun _ => ht⟩

theorem passes_iff {s : State} {k : Nat} {fault : Option String} {r : TaskResult} {j : Nat} {entry : CaptureTaskResult}
    (hk : s.uploads k = .storing r j) (hj : s.resultList[j]? = some entry) :
    s.Passes k fault ↔ (j ≠ k → matchesSpec r.task entry.spec = true →
      entry.status = r.status ∧ (r.success = true ∧ fault.isSome = true → k < j)) := by
  refine ⟨fun h => h r j entry hk hj, fun h r' j' entry' hk' hj' => ?_⟩
  obtain ⟨rfl, rfl⟩ := Upload.storing.inj (hk.symm.trans hk')
  obtain rfl := Option.some.inj (hj.symm.trans hj')
  exact h

theorem visit_match_tracks_iff {s : State} (ht : s.Tracks) {k j : Nat} {fault : Option String} {r : TaskResult}
    {entry own : CaptureTaskResult} (hk : s.uploads k = .storing r j) (hj : s.resultList[j]? = some entry)
    (hown : s.resultList[k]? = some own) (hmatches : matchesSpec r.task entry.spec = true) :
    (s.visit k fault).Tracks ↔
      (j ≠ k → entry.status = r.status ∧ (r.success = true ∧ fault.isSome = true → k < j)) := by
  have hnew := storeEntry_status r fault entry
  have hstatus := ht.entries k own hown
  rw [hk] at hstatus
  rw [visit_match hk hj hmatches, ← storeEntry_fails_iff r fault entry]
  by_cases hjk : j = k
  · subst hjk
    refine iff_of_true (own_tracks ht ?_) (fun h => absurd rfl h)
    cases (storeEntry r fault entry).2 <;> simp [next, Upload.gives, hnew]
  · rw [other_tracks_iff ht hjk hj hown, hnew, hstatus]
    cases (storeEntry r fault entry).2 with
    | none =>
      have hlt : k < j + 1 ↔ k < j := by omega
      simp [next, Upload.gives, hjk, hlt, eq_comm]
    | some err =>
      have hgiven : Upload.gives k (.storing r j) = r.status ↔ k < j := by
        simp [Upload.gives, (status_ne_running r).symm]
      simp only [next, show Upload.gives k (.ended r (some err)) = r.status from rfl, hgiven]
      simp [hjk, eq_comm]

theorem visit_tracks_iff {s : State} (hs : s.Sound) (ht : s.Tracks) (k : Nat) (fault : Option String) :
    (s.visit k fault).Tracks ↔ s.Passes k fault := by
  cases hk : s.uploads k with
  | idle =>
    rw [visit_of_not_storing (by simp [hk])]
    exact iff_of_true ht fun r j entry hj => (by cases hk.symm.trans hj)
  | ended r err =>
    rw [visit_of_not_storing (by simp [hk])]
    exact iff_of_true ht fun r j entry hj => (by cases hk.symm.trans hj)
  | storing r j =>
    have hresult : (s.uploads k).result = some r := by
      rw [hk]
      rfl
    obtain ⟨own, hown⟩ := hs.entry hresult
    have hstatus := ht.entries k own hown
    rw [hk] at hstatus
    cases hj : s.resultList[j]? with
    | none =>
      have hlt : k < j := Nat.lt_of_lt_of_le (List.getElem?_eq_some_iff.mp hown).1 (List.getElem?_eq_none_iff.mp hj)
      rw [visit_end hk hj, setUpload_tracks_iff ht hown, hstatus]
      refine iff_of_true (if_pos hlt) fun r' j' entry hk' hj' => ?_
      obtain ⟨rfl, rfl⟩ := Upload.storing.inj (hk.symm.trans hk')
      cases hj.symm.trans hj'
    | some entry =>
      rw [passes_iff hk hj]
      cases hmatches : matchesSpec r.task entry.spec with
      | true =>
        rw [visit_match_tracks_iff ht hk hj hown hmatches]
        simp
      | false =>
        -- Its own entry matches, so this is another one.
        have hjk : j ≠ k := by
          intro hjk
          subst hjk
          cases hmatches.symm.trans (hs.matches_own hresult hj)
        have hlt : k < j + 1 ↔ k < j := by omega
        rw [visit_other hk hj hmatches, setUpload_tracks_iff ht hown, hstatus]
        simp [hlt, Upload.gives]

theorem start_sound (pods : String → String → Except String Pod) (args : CaptureArgs) : (start pods args).Sound := by
  unfold start
  split
  · exact ⟨rfl, fun k r hr => (by cases hr)⟩
  · exact ⟨rfl, fun k r hr => (by cases hr)⟩

theorem start_tracks (pods : String → String → Except String Pod) (args : CaptureArgs) : (start pods args).Tracks := by
  unfold start
  split
  · exact ⟨fun j entry hj => (by cases hj), fun _ _ => rfl⟩
  · exact ⟨fun j entry hj => (by cases hj), fun _ _ => rfl⟩

theorem store_sound (id : Nat) {s : State} (hs : s.Sound) : (s.store id).Sound := by
  unfold store
  split
  · exact ⟨hs.specs, hs.task⟩
  · exact hs

theorem store_tracks (id : Nat) {s : State} (ht : s.Tracks) : (s.store id).Tracks := by
  unfold store
  split
  · exact ⟨ht.entries, fun err herr => (by cases herr)⟩
  · exact ht

theorem step_sound (id : Nat) {s : State} (hs : s.Sound) (e : Event) : (s.step id e).2.Sound := by
  cases e with
  | commit taskWatcher => exact commit_sound id hs taskWatcher
  | store => exact store_sound id hs
  | expire => exact ⟨hs.specs, hs.task⟩
  | upload k outcome => exact upload_sound id hs k outcome
  | visit k fault => exact visit_sound hs k fault

theorem step_tracks_iff (id : Nat) {s : State} (hs : s.Sound) (ht : s.Tracks) (e : Event) :
    (s.step id e).2.Tracks ↔ s.Orderly e := by
  cases e with
  | commit taskWatcher => exact commit_tracks_iff id hs ht taskWatcher
  | store => exact iff_of_true (store_tracks id ht) trivial
  | expire => exact iff_of_true ⟨ht.entries, ht.failed⟩ trivial
  | upload k outcome => exact upload_tracks_iff id hs ht k outcome
  | visit k fault => exact visit_tracks_iff hs ht k fault

/-! ## Requests whose items cannot be taken for each other -/

section Request

variable {pods : String → String → Except String Pod} {args : CaptureArgs}

/-- No node of the request has the name of another item. -/
def Unambiguous (items : List Item) : Prop :=
  ∀ a ∈ items, ∀ b ∈ items, a.type = typeNode → a.name = b.name → a = b

theorem captureInfo_ok {item : Item} {info : CaptureInfo} (h : captureInfo pods args item = .ok info) :
    (item.type = typePod ∧ ∃ pod, info.pod = some pod ∧ pod.name = item.name ∧ pod.ns = item.ns) ∨
      item.type = typeNode ∧ info.pod = none ∧ info.node.name = item.name := by
  unfold captureInfo at h
  split at h
  · rename_i htype
    split at h
    · cases h
    · rename_i pod node hpod
      obtain rfl := Except.ok.inj h
      unfold getPodInfo at hpod
      split at hpod
      · cases hpod
      · split at hpod
        · cases hpod
        · obtain ⟨rfl, rfl⟩ := Prod.mk.inj (Except.ok.inj hpod)
          exact .inl ⟨htype, _, rfl, rfl, rfl⟩
  · split at h
    · obtain rfl := Except.ok.inj h
      exact .inr ⟨‹_›, rfl, rfl⟩
    · cases h

theorem eq_of_matchesSpec (hitems : Unambiguous args.captureList) {a b : Item} (ha : a ∈ args.captureList)
    (hb : b ∈ args.captureList) {ia ib : CaptureInfo} (hia : captureInfo pods args a = .ok ia)
    (hib : captureInfo pods args b = .ok ib) (h : matchesSpec ia (taskSpec ib) = true) : a = b := by
  rcases captureInfo_ok hia with ⟨hta, pa, hpa, hname, hns⟩ | ⟨hta, hpa, hname⟩
  · rcases captureInfo_ok hib with ⟨htb, pb, hpb, hname', hns'⟩ | ⟨htb, hpb, hname'⟩
    · simp only [matchesSpec, hpa, taskSpec_of_pod hpb, Bool.and_eq_true, beq_iff_eq, hname, hns, hname', hns'] at h
      exact Item.ext (hta.trans htb.symm) h.2 h.1
    · simp only [matchesSpec, hpa, taskSpec_of_node hpb, Bool.and_eq_true, beq_iff_eq, hname, hname'] at h
      exact (hitems b hb a ha htb h.2.symm).symm
  · refine hitems a ha b hb hta ?_
    rcases captureInfo_ok hib with ⟨htb, pb, hpb, hname', -⟩ | ⟨htb, hpb, hname'⟩
    · simpa only [matchesSpec, hpa, taskSpec_of_pod hpb, beq_iff_eq, hname, hname'] using h
    · simpa only [matchesSpec, hpa, taskSpec_of_node hpb, beq_iff_eq, hname, hname'] using h

def FromRequest (pods : String → String → Except String Pod) (args : CaptureArgs) (s : State) : Prop :=
  ∀ (k : Nat) (info : CaptureInfo), (s.committed ++ s.tasksToCommit)[k]? = some info →
    ∃ item, args.captureList[k]? = some item ∧ captureInfo pods args item = .ok info

theorem start_fromRequest : FromRequest pods args (start pods args) := by
  intro k info hk
  unfold start at hk
  split at hk
  · cases hk
  · rename_i infos hinfos
    exact getElem?_of_mapM_ok hinfos hk

theorem commit_tasks (id : Nat) (s : State) (taskWatcher : List TaskFilter) :
    (s.commit id taskWatcher).committed ++ (s.commit id taskWatcher).tasksToCommit = s.committed ++ s.tasksToCommit := by
  unfold commit
  split
  · rename_i htasks
    split
    · simp [htasks]
    · rfl
  · rfl

theorem upload_tasks (id : Nat) (s : State) (k : Nat) (outcome : Except String String) :
    (s.upload id k outcome).committed = s.committed ∧ (s.upload id k outcome).tasksToCommit = s.tasksToCommit := by
  unfold upload
  split
  · split <;> exact ⟨rfl, rfl⟩
  · exact ⟨rfl, rfl⟩

theorem visit_tasks (s : State) (k : Nat) (fault : Option String) :
    (s.visit k fault).committed = s.committed ∧ (s.visit k fault).tasksToCommit = s.tasksToCommit := by
  cases hk : s.uploads k with
  | idle => simp [visit, hk]
  | ended r err => simp [visit, hk]
  | storing r j =>
    cases hj : s.resultList[j]? with
    | none => simp [visit_end hk hj, setUpload]
    | some entry =>
      cases hmatches : matchesSpec r.task entry.spec with
      | false => simp [visit_other hk hj hmatches, setUpload]
      | true => simp [visit_match hk hj hmatches, setUpload]

theorem step_fromRequest (id : Nat) {s : State} (hs : FromRequest pods args s) (e : Event) :
    FromRequest pods args (s.step id e).2 := by
  have hsame : (s.step id e).2.committed ++ (s.step id e).2.tasksToCommit = s.committed ++ s.tasksToCommit := by
    cases e with
    | commit taskWatcher => exact commit_tasks id s taskWatcher
    | store =>
      simp only [step, store]
      split <;> rfl
    | expire => rfl
    | upload k outcome => exact congrArg₂ _ (upload_tasks id s k outcome).1 (upload_tasks id s k outcome).2
    | visit k fault => exact congrArg₂ _ (visit_tasks s k fault).1 (visit_tasks s k fault).2
  unfold FromRequest
  rw [hsame]
  exact hs

theorem passes_of_unambiguous (hnodup : args.captureList.Nodup) (hitems : Unambiguous args.captureList) {s : State}
    (hs : s.Sound) (hreq : FromRequest pods args s) (k : Nat) (fault : Option String) : s.Passes k fault := by
  intro r j entry hk hj hjk hmatches
  have htask : s.committed[k]? = some r.task := hs.task k r (by rw [hk]; rfl)
  have hspec : (s.resultList.map CaptureTaskResult.spec)[j]? = (s.committed.map taskSpec)[j]? := by rw [hs.specs]
  rw [List.getElem?_map, List.getElem?_map, hj] at hspec
  obtain ⟨info, hinfo, hspec⟩ := Option.map_eq_some_iff.mp hspec.symm
  obtain ⟨a, ha, hia⟩ := hreq k r.task (by rw [List.getElem?_append_left (List.getElem?_eq_some_iff.mp htask).1, htask])
  obtain ⟨b, hb, hib⟩ := hreq j info (by rw [List.getElem?_append_left (List.getElem?_eq_some_iff.mp hinfo).1, hinfo])
  rw [← hspec] at hmatches
  obtain rfl := eq_of_matchesSpec hitems (List.mem_of_getElem? ha) (List.mem_of_getElem? hb) hia hib hmatches
  exact absurd ((List.getElem?_inj (List.getElem?_eq_some_iff.mp hb).1 hnodup).mp (hb.trans ha.symm)) hjk

def Timely (s : State) : Event → Prop
  | .commit taskWatcher => s.FailsFirst taskWatcher
  | .upload k _ => s.FindsList k
  | _ => True

end Request

/-- In every run of a request, each entry has at any time the status its own upload has given
    it, and no task is given out by a `Capture` that fails, exactly where each step is
    orderly. Where no node has the name of another item this leaves the order of the steps. -/
theorem capture_tracks_iff (pods : String → String → Except String Pod) (args : CaptureArgs) (id : Nat) (es : List Event) :
    (always (step id) Tracks (start pods args) es ↔ along (step id) Orderly (start pods args) es) ∧
      (args.captureList.Nodup → Unambiguous args.captureList →
        (along (step id) Orderly (start pods args) es ↔ along (step id) Timely (start pods args) es)) := by
  refine ⟨?_, fun hnodup hitems => ?_⟩
  · refine always_iff_along (I := fun s : State => s.Sound ∧ s.Tracks) (fun _ hs => hs.2) (fun s e hs he => ?_)
      (fun s e hs he ht => he ((step_tracks_iff id hs.1 hs.2 e).mp ht)) ⟨start_sound pods args, start_tracks pods args⟩ es
    exact ⟨step_sound id hs.1 e, (step_tracks_iff id hs.1 hs.2 e).mpr he⟩
  · refine along_iff_along (I := fun s : State => s.Sound ∧ FromRequest pods args s)
      (fun s e hs _ => ⟨step_sound id hs.1 e, step_fromRequest id hs.2 e⟩) (fun s e hs => ?_)
      ⟨start_sound pods args, start_fromRequest⟩ es
    cases e with
    | visit k fault => exact iff_of_true (passes_of_unambiguous hnodup hitems hs.1 hs.2 k fault) trivial
    | _ => exact Iff.rfl

def podsOn : String → String → Except String Pod := fun _ _ => .ok ⟨"Running", false, "n1"⟩

def agentOn : List TaskFilter := [⟨"n1", [.ping, .capture]⟩]

/-- The status of each entry, how many tasks were given out, and whether `Capture` has failed. -/
def outcome (items : List Item) (es : List Event) : List Status × Nat × Bool :=
  let s := (exec (step 7) (start podsOn ⟨items, 10, ""⟩) es).2
  (s.resultList.map CaptureTaskResult.status, s.committed.length,
    match s.returned with
    | some (.error _) => true
    | _ => false)

/-- The agent of the first pod uploads before the task of the second is given out, and its entry
    stays running. The upload of the node `n1` also sets the pod of that name. The second node
    has no agent, and `Capture` fails with one task given out. -/
theorem capture_loses_track :
    outcome [⟨"Pod", "web", "default"⟩, ⟨"Pod", "db", "default"⟩]
        [.commit agentOn, .upload 0 (.ok "pcap"), .commit agentOn, .store, .visit 0 none, .visit 0 none] =
          ([.running, .running], 2, false) ∧
      outcome [⟨"Node", "n1", ""⟩, ⟨"Pod", "n1", "default"⟩]
        [.commit agentOn, .commit agentOn, .store, .upload 0 (.ok "pcap"), .visit 0 none, .visit 0 none, .visit 0 none] =
          ([.success, .success], 2, false) ∧
      outcome [⟨"Node", "n1", ""⟩, ⟨"Node", "n2", ""⟩] [.commit agentOn, .commit agentOn] = ([.running], 1, true) := by
  decide +kernel

end State

end EliteTelemetry.Controller.Capture
