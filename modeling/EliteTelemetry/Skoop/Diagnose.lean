/-
  EliteTelemetry.Skoop.Diagnose — the packet path of a diagnosis (`defaultDiagnostor.Diagnose`
  of `skoop/skoop/diagnose.go`; `Links`, `Nodes` and `Paths` of `skoop/model/path.go`; `DoAction`
  and `ActionOf` of `skoop/model/netnode.go`).

  `Diagnose` takes the links in order, the source's first. The node that receives one becomes its
  destination and may record an action for it, whose outputs are new links. It ends when no link
  is left, or at the first `Receive` that fails, and then returns the path without an error. The
  traversals start from the outputs of the source and follow each link to its destination.

  A traversal goes by the same queue as `Diagnose`. So it comes to the link of the failed
  `Receive` and to all that were still waiting, and these have no destination. A path that is
  returned without an error can be displayed exactly if no `Receive` failed, or the one that
  failed had set the destination, had recorded no links and had none waiting behind it
  (`displayable_iff`).

  What nodes do is left open: the outcomes of `Send` and of each `Receive` are given. Links have
  their ends only; how a path is written out as text is left out.
-/

import EliteTelemetry.Lib.Fallible
import EliteTelemetry.Lib.WorkList
import Mathlib.Data.List.Nodup

namespace EliteTelemetry.Skoop.Diagnose

open EliteTelemetry.Lib.Fallible
open EliteTelemetry.Lib.WorkList

/-! ## Nodes and links -/

inductive ActionType where
  | service
  | serve
  | forward
  | send
  deriving DecidableEq, Repr

structure Link (N : Type) where
  source : N
  destination : Option N
  deriving DecidableEq, Repr

/-- `Action`. A pointer to a link is its place among the links that were made. -/
structure Action where
  type : ActionType
  outputs : List Nat
  deriving DecidableEq, Repr

structure World (N : Type) where
  links : List (Link N)
  initiative : N → Option Action
  actions : N → Nat → Option Action

variable {N : Type}

namespace World

def new : World N := ⟨[], fun _ => none, fun _ _ => none⟩

def doAction [DecidableEq N] (w : World N) (n : N) (input : Option Nat) (action : Action) : World N :=
  match input with
  | none => { w with initiative := fun m => if m = n then some action else w.initiative m }
  | some l => { w with actions := fun m k => if m = n ∧ k = l then some action else w.actions m k }

def actionOf (w : World N) (n : N) : Option Nat → Option Action
  | none => w.initiative n
  | some l => w.actions n l

def setDestination (w : World N) (l : Nat) (n : N) : World N :=
  { w with links := w.links.modify l fun link => { link with destination := some n } }

def newRefs (w : World N) (count : Nat) : List Nat := List.range' w.links.length count

def newLinks (w : World N) (n : N) (count : Nat) : World N :=
  { w with links := w.links ++ List.replicate count ⟨n, none⟩ }

def record [DecidableEq N] (w : World N) (n : N) (input : Option Nat) : Option (ActionType × Nat) → World N
  | none => w
  | some (type, count) => (w.newLinks n count).doAction n input ⟨type, w.newRefs count⟩

end World

def outputs : Option (ActionType × Nat) → Nat
  | none => 0
  | some (_, count) => count

/-! ## The diagnosis -/

/-- What `Send` comes to. Where it cannot build a transmission it may have recorded an action
    without outputs. -/
inductive Sending (N : Type) where
  | failed (err : String)
  | cannotBuild (srcNode : N) (type : Option ActionType)
  | sent (srcNode : N) (type : ActionType) (links : Nat)
  deriving DecidableEq, Repr

/-- What taking a link comes to: there is no node for the next hop, or its `Receive` fails, or it
    returns the transmissions of the links that it records. -/
inductive Reception (N : Type) where
  | noNode (err : String)
  | failed (node : N) (setsDestination : Bool) (action : Option (ActionType × Nat))
  | ok (node : N) (action : Option (ActionType × Nat))
  deriving DecidableEq, Repr

/-- The loop of `Diagnose`, with what each link that is taken comes to. None where there is more
    to come. -/
def receiveAll [DecidableEq N] : World N → List Nat → List (Reception N) → Option (World N × Option String)
  | w, [], _ => some (w, none)
  | _, _ :: _, [] => none
  | w, _ :: _, .noNode err :: _ => some (w, some err)
  | w, l :: _, .failed node sets action :: _ =>
    let w := if sets then w.setDestination l node else w
    some (w.record node (some l) action, none)
  | w, l :: queue, .ok node action :: rest =>
    let w := w.setDestination l node
    receiveAll (w.record node (some l) action) (queue ++ w.newRefs (outputs action)) rest

/-- `Diagnose`, from when the source node is known: the origin of the path, and the error. -/
def diagnose [DecidableEq N] : Sending N → List (Reception N) → Option (World N × Option N × Option String)
  | .failed err, _ => some (World.new, none, some err)
  | .cannotBuild srcNode type, _ => some (World.new.record srcNode none (type.map (·, 0)), some srcNode, none)
  | .sent srcNode type links, receptions =>
    let w := World.new.record srcNode none (some (type, links))
    if links = 0 then some (w, none, some "unexpected zero size transmission output")
    else (receiveAll w (World.new (N := N) |>.newRefs links) receptions).map fun r => (r.1, some srcNode, r.2)

/-! ## The traversals -/

inductive Panic where
  | nilDestination
  deriving DecidableEq, Repr

/-- An item of what `Paths` writes: a node, or an edge with the type of the action, if any, that
    its destination takes on it. -/
inductive PathItem where
  | node (id : String)
  | edge (source destination : String) (action : Option ActionType)
  deriving DecidableEq, Repr

namespace World

variable (w : World N)

def ends (l : Nat) : Except Panic (N × N) :=
  match w.links[l]? with
  | some ⟨source, some destination⟩ => .ok (source, destination)
  | _ => .error .nilDestination

def outputsOf (l : Nat) : Except Panic (List Nat) :=
  (w.ends l).map fun e => ((w.actionOf e.2 (some l)).map (·.outputs)).getD []

def roots (origin : N) : List Nat := ((w.actionOf origin none).map (·.outputs)).getD []

def linksFrom (fuel : Nat) (origin : N) : Option (Except Panic (List Nat)) := drain w.outputsOf fuel (w.roots origin)

variable (getID : N → String)

def addNode (nodes : List N) (n : N) : List N := if nodes.any (getID · = getID n) then nodes else nodes ++ [n]

def nodesFrom (fuel : Nat) (origin : N) : Option (Except Panic (List N)) :=
  (drain w.outputsOf fuel (w.roots origin)).map fun links => do
    let ends ← (← links).mapM w.ends
    let nodes := ends.foldl (fun nodes e => addNode getID (addNode getID nodes e.1) e.2) []
    return if nodes.isEmpty then [origin] else nodes

def edge (l : Nat) : Except Panic PathItem :=
  (w.ends l).map fun e => .edge (getID e.1) (getID e.2) ((w.actionOf e.2 (some l)).map (·.type))

def paths (fuel : Nat) (origin : N) : Option (Except Panic (List PathItem)) :=
  match w.linksFrom fuel origin with
  | none => none
  | some (.error panic) => some (.error panic)
  | some (.ok []) => (w.nodesFrom getID fuel origin).map (·.map (·.map fun n => .node (getID n)))
  | some (.ok links) => some (links.mapM (w.edge getID))

/-- The three traversals return, and each link that they return has both ends. -/
def Displayable (origin : N) : Prop :=
  ∃ fuel links nodes items, w.linksFrom fuel origin = some (.ok links) ∧ (∀ l ∈ links, ∃ e, w.ends l = .ok e) ∧
    w.nodesFrom getID fuel origin = some (.ok nodes) ∧ w.paths getID fuel origin = some (.ok items)

end World

/-! ## When a path can be displayed -/

/-- With so many links waiting, no `Receive` to come fails but one that has set the destination,
    has recorded no links and has none waiting behind it. -/
def EndsWell : Nat → List (Reception N) → Prop
  | 0, _ => True
  | _ + 1, [] => False
  | _ + 1, .noNode _ :: _ => False
  | waiting + 1, .failed _ setsDestination action :: _ => setsDestination = true ∧ outputs action = 0 ∧ waiting = 0
  | waiting + 1, .ok _ action :: rest => EndsWell (waiting + outputs action) rest

def Sending.EndsWell : Sending N → List (Reception N) → Prop
  | .sent _ _ links, receptions => Diagnose.EndsWell links receptions
  | _, _ => True

namespace World

variable {w : World N} {getID : N → String}

theorem ends_of_outputsOf {l : Nat} {next : List Nat} (h : w.outputsOf l = .ok next) : ∃ e, w.ends l = .ok e := by
  unfold outputsOf at h
  cases he : w.ends l with
  | error panic => simp [he, Except.map] at h
  | ok e => exact ⟨e, rfl⟩

/-- A path can be displayed exactly if the loop of the traversals ends. -/
theorem displayable_iff_drains {origin : N} :
    w.Displayable getID origin ↔ ∃ links, Drains w.outputsOf (w.roots origin) links := by
  constructor
  · intro ⟨fuel, links, _, _, hlinks, _⟩
    exact ⟨links, fuel, hlinks⟩
  · intro ⟨links, fuel, hlinks⟩
    have hends : ∀ l ∈ links, ∃ e, w.ends l = .ok e := by
      intro l hl
      obtain ⟨next, hnext⟩ := Drains.expands ⟨fuel, hlinks⟩ l hl
      exact ends_of_outputsOf hnext
    obtain ⟨es, hes⟩ := exists_mapM_ok_iff.mpr hends
    obtain ⟨nodes, hnodes⟩ : ∃ nodes, w.nodesFrom getID fuel origin = some (.ok nodes) := by
      unfold nodesFrom
      rw [hlinks]
      exact ⟨_, congrArg some (show (links.mapM w.ends >>= _) = _ by rw [hes]; rfl)⟩
    have hpaths : ∃ items, w.paths getID fuel origin = some (.ok items) := by
      unfold paths
      rw [show w.linksFrom fuel origin = some (.ok links) from hlinks]
      cases links with
      | nil => exact ⟨_, by simp [hnodes, Except.map]; rfl⟩
      | cons l links =>
        have hedges : ∀ k ∈ l :: links, ∃ item, w.edge getID k = .ok item := by
          intro k hk
          obtain ⟨e, he⟩ := hends k hk
          exact ⟨_, by rw [edge, he]; rfl⟩
        obtain ⟨items, hitems⟩ := exists_mapM_ok_iff.mpr hedges
        exact ⟨items, congrArg some hitems⟩
    obtain ⟨items, hitems⟩ := hpaths
    exact ⟨fuel, links, nodes, items, hlinks, hends, hnodes, hitems⟩

/-! ### What taking a link changes -/

theorem ends_eq_of_links {w' : World N} {l : Nat} (h : w'.links[l]? = w.links[l]?) : w'.ends l = w.ends l := by
  unfold ends
  rw [h]

theorem outputsOf_eq_of_links {w' : World N} {l : Nat} (h : w'.links[l]? = w.links[l]?)
    (hactions : ∀ n, w'.actions n l = w.actions n l) : w'.outputsOf l = w.outputsOf l := by
  unfold outputsOf actionOf
  rw [ends_eq_of_links h]
  simp only [hactions]

@[simp] theorem length_setDestination (l : Nat) (n : N) : (w.setDestination l n).links.length = w.links.length := by
  simp [setDestination]

theorem getElem?_setDestination_of_ne {l k : Nat} (n : N) (h : k ≠ l) :
    (w.setDestination l n).links[k]? = w.links[k]? := by
  simp [setDestination, Ne.symm h]

theorem getElem?_setDestination_self {l : Nat} {link : Link N} (n : N) (h : w.links[l]? = some link) :
    (w.setDestination l n).links[l]? = some { link with destination := some n } := by
  simp [setDestination, h]

theorem outputsOf_setDestination {l k : Nat} (h : k ≠ l) (n : N) :
    (w.setDestination l n).outputsOf k = w.outputsOf k :=
  outputsOf_eq_of_links (getElem?_setDestination_of_ne n h) fun _ => rfl

variable [DecidableEq N]

theorem links_record (n : N) (input : Option Nat) (action : Option (ActionType × Nat)) :
    (w.record n input action).links = w.links ++ List.replicate (outputs action) ⟨n, none⟩ := by
  cases action with
  | none => simp [record, outputs]
  | some a => cases input <;> rfl

theorem getElem?_record {l : Nat} (hl : l < w.links.length) (n : N) (input : Option Nat)
    (action : Option (ActionType × Nat)) : (w.record n input action).links[l]? = w.links[l]? := by
  rw [links_record, List.getElem?_append_left hl]

theorem actions_record_of_ne {l k : Nat} (h : k ≠ l) (n m : N) (action : Option (ActionType × Nat)) :
    (w.record n (some l) action).actions m k = w.actions m k := by
  cases action with
  | none => rfl
  | some a => simp [record, doAction, newLinks, h]

theorem outputsOf_record {l k : Nat} (hk : k < w.links.length) (h : k ≠ l) (n : N)
    (action : Option (ActionType × Nat)) : (w.record n (some l) action).outputsOf k = w.outputsOf k :=
  outputsOf_eq_of_links (getElem?_record hk n _ action) fun m => actions_record_of_ne h n m action

end World

/-! ### The links that are waiting -/

/-- The links that are waiting are different ones, they have no destination, and no node has
    recorded an action for them, or for a link that is not made yet. -/
structure Waiting (w : World N) (queue : List Nat) : Prop where
  nodup : queue.Nodup
  noDestination : ∀ l ∈ queue, ∃ n, w.links[l]? = some ⟨n, none⟩
  noAction : ∀ l, l ∈ queue ∨ w.links.length ≤ l → ∀ n, w.actions n l = none

namespace Waiting

variable {w : World N} {l : Nat} {queue : List Nat}

theorem lt_length (h : Waiting w queue) (hl : l ∈ queue) : l < w.links.length := by
  obtain ⟨n, hn⟩ := h.noDestination l hl
  exact (List.getElem?_eq_some_iff.mp hn).1

theorem outputsOf_error (h : Waiting w queue) (hl : l ∈ queue) : w.outputsOf l = .error .nilDestination := by
  obtain ⟨n, hn⟩ := h.noDestination l hl
  simp [World.outputsOf, World.ends, hn, Except.map]

theorem drains_iff (h : Waiting w queue) : (∃ links, Drains w.outputsOf queue links) ↔ queue = [] := by
  cases queue with
  | nil => exact iff_of_true ⟨[], drains_nil⟩ rfl
  | cons l queue =>
    refine iff_of_false (fun ⟨links, hdrains⟩ => ?_) (by simp)
    exact not_drains_of_error (h.outputsOf_error List.mem_cons_self) hdrains

variable [DecidableEq N] (n : N) (action : Option (ActionType × Nat))

theorem outputsOf_received (h : Waiting w (l :: queue)) :
    ((w.setDestination l n).record n (some l) action).outputsOf l = .ok ((w.setDestination l n).newRefs (outputs action)) := by
  obtain ⟨source, hlink⟩ := h.noDestination l List.mem_cons_self
  have hl : l < (w.setDestination l n).links.length := by simpa using h.lt_length List.mem_cons_self
  have hdest := w.getElem?_setDestination_self n hlink
  rw [← World.getElem?_record hl n (some l) action] at hdest
  have hnone : w.actions n l = none := h.noAction l (.inl List.mem_cons_self) n
  unfold World.outputsOf World.ends
  rw [hdest]
  cases action with
  | none => simp [Except.map, World.actionOf, World.record, World.setDestination, hnone, World.newRefs, outputs]
  | some a => simp [Except.map, World.actionOf, World.record, World.doAction, outputs]

omit [DecidableEq N] in
theorem mem_newRefs {w : World N} {count k : Nat} :
    k ∈ w.newRefs count ↔ w.links.length ≤ k ∧ k < w.links.length + count := List.mem_range'_1

theorem other_of_received (h : Waiting w (l :: queue)) {k : Nat}
    (hk : k ∈ queue ++ (w.setDestination l n).newRefs (outputs action) ∨
      ((w.setDestination l n).record n (some l) action).links.length ≤ k) :
    k ≠ l ∧ (k ∈ l :: queue ∨ w.links.length ≤ k) := by
  have hl : l < w.links.length := h.lt_length List.mem_cons_self
  have hlater : w.links.length ≤ k → k ≠ l ∧ (k ∈ l :: queue ∨ w.links.length ≤ k) := fun hge => ⟨by omega, .inr hge⟩
  rw [List.mem_append, mem_newRefs, World.links_record, List.length_append, World.length_setDestination] at hk
  rcases hk with (hk | hk) | hk
  · have hnotmem := (List.nodup_cons.mp h.nodup).1
    exact ⟨fun heq => hnotmem (heq ▸ hk), .inl (List.mem_cons_of_mem l hk)⟩
  · exact hlater hk.1
  · exact hlater (by omega)

/-- After a link is received the others wait, and behind them the links that were made. -/
theorem received (h : Waiting w (l :: queue)) :
    Waiting ((w.setDestination l n).record n (some l) action)
      (queue ++ (w.setDestination l n).newRefs (outputs action)) := by
  have hlt : ∀ k ∈ queue, k < w.links.length := fun k hk => h.lt_length (List.mem_cons_of_mem l hk)
  refine ⟨?_, fun k hk => ?_, fun k hk m => ?_⟩
  · refine List.nodup_append.mpr ⟨(List.nodup_cons.mp h.nodup).2, List.nodup_range', fun k hk k' hk' heq => ?_⟩
    have hold := hlt k hk
    have hnew := (mem_newRefs.mp hk').1
    rw [World.length_setDestination] at hnew
    omega
  · obtain ⟨hne, -⟩ := other_of_received n action h (.inl hk)
    rcases List.mem_append.mp hk with hk | hk
    · rw [World.getElem?_record (by simpa using hlt k hk), World.getElem?_setDestination_of_ne n hne]
      exact h.noDestination k (List.mem_cons_of_mem l hk)
    · obtain ⟨hge, hlast⟩ := mem_newRefs.mp hk
      refine ⟨n, ?_⟩
      rw [World.links_record, List.getElem?_append_right hge, List.getElem?_replicate, if_pos (by omega)]
  · obtain ⟨hne, hold⟩ := other_of_received n action h hk
    rw [World.actions_record_of_ne hne]
    exact h.noAction k hold m

end Waiting

section Replay

variable [DecidableEq N] {w w' : World N} {queue : List Nat} {receptions : List (Reception N)} {err : Option String}

theorem World.initiative_record (w : World N) (n : N) (l : Nat) (action : Option (ActionType × Nat)) :
    (w.record n (some l) action).initiative = w.initiative := by
  cases action <;> rfl

theorem taken_of_record {k l : Nat} (hk : k < w.links.length) (hnot : k ∉ queue) (n : N)
    (action : Option (ActionType × Nat)) :
    k < ((w.setDestination l n).record n (some l) action).links.length ∧
      k ∉ queue ++ (w.setDestination l n).newRefs (outputs action) := by
  rw [World.links_record, List.length_append, World.length_setDestination]
  refine ⟨by omega, fun hmem => ?_⟩
  rcases List.mem_append.mp hmem with hmem | hmem
  · exact hnot hmem
  · have hnew := (Waiting.mem_newRefs.mp hmem).1
    rw [World.length_setDestination] at hnew
    omega

theorem receiveAll_keeps (h : receiveAll w queue receptions = some (w', err)) :
    w'.initiative = w.initiative ∧ ∀ k < w.links.length, k ∉ queue → w'.outputsOf k = w.outputsOf k := by
  fun_induction receiveAll w queue receptions with
  | case1 w _ =>
    obtain ⟨rfl, -⟩ := Prod.mk.inj (Option.some.inj h)
    exact ⟨rfl, fun _ _ _ => rfl⟩
  | case2 => cases h
  | case3 w _ _ e _ =>
    obtain ⟨rfl, -⟩ := Prod.mk.inj (Option.some.inj h)
    exact ⟨rfl, fun _ _ _ => rfl⟩
  | case4 w l queue node sets action _ w₁ =>
    obtain ⟨rfl, -⟩ := Prod.mk.inj (Option.some.inj h)
    rw [World.initiative_record]
    refine ⟨by cases sets <;> rfl, fun k hk hnot => ?_⟩
    have hne : k ≠ l := fun heq => hnot (heq ▸ List.mem_cons_self)
    cases sets with
    | false => exact World.outputsOf_record hk hne node action
    | true =>
      exact (World.outputsOf_record (by simpa [w₁] using hk) hne node action).trans (World.outputsOf_setDestination hne node)
  | case5 w l queue node action rest w₁ ih =>
    obtain ⟨hinit, hkeep⟩ := ih h
    rw [World.initiative_record] at hinit
    refine ⟨hinit, fun k hk hnot => ?_⟩
    have hne : k ≠ l := fun heq => hnot (heq ▸ List.mem_cons_self)
    obtain ⟨hlen, hnot'⟩ := taken_of_record hk (fun hmem => hnot (List.mem_cons_of_mem l hmem)) node action
    rw [hkeep k hlen hnot', World.outputsOf_record (by simpa [w₁] using hk) hne node action,
      World.outputsOf_setDestination hne node]

/-- From the links that are waiting a traversal of the path that is returned takes the links that
    the loop took: it ends exactly if the loop ended well. -/
theorem drains_receiveAll_iff (hwait : Waiting w queue) (h : receiveAll w queue receptions = some (w', none)) :
    (∃ links, Drains w'.outputsOf queue links) ↔ EndsWell queue.length receptions := by
  fun_induction receiveAll w queue receptions with
  | case1 => exact iff_of_true ⟨[], drains_nil⟩ (by simp [EndsWell])
  | case2 => cases h
  | case3 => simp at h
  | case4 w l queue node sets action _ =>
    obtain ⟨rfl, -⟩ := Prod.mk.inj (Option.some.inj h)
    cases sets with
    | false =>
      -- The link has no destination, whatever was recorded for it.
      obtain ⟨source, hlink⟩ := hwait.noDestination l List.mem_cons_self
      have hlt := hwait.lt_length (l := l) List.mem_cons_self
      have herror : (w.record node (some l) action).outputsOf l = .error .nilDestination := by
        unfold World.outputsOf World.ends
        rw [World.getElem?_record hlt, hlink]
        rfl
      refine iff_of_false (fun ⟨links, hdrains⟩ => not_drains_of_error herror hdrains) ?_
      simp [EndsWell]
    | true =>
      -- The link leads on to the links that wait, and these have no destination.
      have hout := hwait.outputsOf_received node action
      have hrest := (hwait.received node action).drains_iff
      refine (exists_drains_cons_iff hout).trans (hrest.trans ?_)
      simp [EndsWell, World.newRefs, and_comm]
  | case5 w l queue node action rest w₁ ih =>
    -- What was recorded for the link stands to the end.
    obtain ⟨hlen, hnot⟩ := taken_of_record (hwait.lt_length List.mem_cons_self) (List.nodup_cons.mp hwait.nodup).1 node action
    have hout : w'.outputsOf l = .ok (w₁.newRefs (outputs action)) :=
      ((receiveAll_keeps h).2 l hlen hnot).trans (hwait.outputsOf_received node action)
    have hrest := ih (hwait.received node action) h
    rw [List.length_append, show (w₁.newRefs (outputs action)).length = outputs action from List.length_range'] at hrest
    exact (exists_drains_cons_iff hout).trans hrest

end Replay

theorem waiting_sent [DecidableEq N] (srcNode : N) (type : ActionType) (links : Nat) :
    Waiting (World.new.record srcNode none (some (type, links))) (World.new (N := N) |>.newRefs links) := by
  refine ⟨List.nodup_range', fun l hl => ⟨srcNode, ?_⟩, fun _ _ _ => rfl⟩
  have hlt : l < links := by simpa [World.newRefs, World.new, List.mem_range'_1] using hl
  rw [World.links_record]
  simp [World.new, outputs, hlt]

/-- A path that is returned without an error can be displayed exactly if no `Receive` failed, but one
    that had set the destination, had recorded no links and had none waiting behind it. -/
theorem displayable_iff [DecidableEq N] (getID : N → String) {sending : Sending N} {receptions : List (Reception N)}
    {w : World N} {origin : N} (h : diagnose sending receptions = some (w, some origin, none)) :
    w.Displayable getID origin ↔ sending.EndsWell receptions := by
  rw [World.displayable_iff_drains]
  cases sending with
  | failed err => simp [diagnose] at h
  | cannotBuild srcNode type =>
    obtain ⟨rfl, hrest⟩ := Prod.mk.inj (Option.some.inj h)
    obtain ⟨horigin, -⟩ := Prod.mk.inj hrest
    obtain rfl := Option.some.inj horigin
    have hroots : (World.new.record srcNode none (type.map (·, 0))).roots srcNode = [] := by
      cases type with
      | none => rfl
      | some type => simp [World.roots, World.actionOf, World.record, World.doAction, World.newRefs]
    rw [hroots]
    exact iff_of_true ⟨[], drains_nil⟩ trivial
  | sent srcNode type links =>
    simp only [diagnose] at h
    split at h
    · simp at h
    · obtain ⟨⟨w', err⟩, hrun, hresult⟩ := Option.map_eq_some_iff.mp h
      obtain ⟨rfl, hrest⟩ := Prod.mk.inj hresult
      obtain ⟨horigin, rfl⟩ := Prod.mk.inj hrest
      obtain rfl := Option.some.inj horigin
      have hroots : w'.roots srcNode = (World.new (N := N)).newRefs links := by
        unfold World.roots World.actionOf
        rw [(receiveAll_keeps hrun).1]
        simp [World.record, World.doAction]
      rw [hroots, drains_receiveAll_iff (waiting_sent srcNode type links) hrun]
      simp [Sending.EndsWell, World.newRefs]

/-! ## Paths that can and cannot be displayed -/

/-- A pod sends to a pod on the same node. -/
theorem displayable_of_drained :
    ∃ w, diagnose (.sent "pod a" .send 1) [.ok "node" (some (.forward, 1)), .ok "pod b" (some (.serve, 0))] =
        some (w, some "pod a", none) ∧ w.Displayable id "pod a" := by
  obtain ⟨w, hw⟩ : ∃ w, diagnose (.sent "pod a" .send 1)
      [.ok "node" (some (.forward, 1)), .ok "pod b" (some (.serve, 0))] = some (w, some "pod a", none) := ⟨_, rfl⟩
  exact ⟨w, hw, (displayable_iff id hw).mpr trivial⟩

/-- The node forwards the packet over a link that is not one of veth: `Receive` of the pod fails before
    it sets the destination. And a node has two backends to send to, the first of which fails after it
    has set the destination: the second link has none. Both paths are returned without an error, and
    every traversal of them ends in a nil dereference. -/
theorem a_failed_receive_leaves_no_destination :
    (∃ w, diagnose (.sent "pod a" .send 1) [.ok "node" (some (.forward, 1)), .failed "pod b" false none] =
        some (w, some "pod a", none) ∧
      w.linksFrom 2 "pod a" = some (.error .nilDestination) ∧ w.nodesFrom id 2 "pod a" = some (.error .nilDestination) ∧
      w.paths id 2 "pod a" = some (.error .nilDestination)) ∧
    ∃ w, diagnose (.sent "node" .service 2) [.failed "pod b" true none] = some (w, some "node", none) ∧
      w.linksFrom 2 "node" = some (.error .nilDestination) :=
  ⟨⟨_, rfl, by decide +kernel, by decide +kernel, by decide +kernel⟩, _, rfl, by decide +kernel⟩

end EliteTelemetry.Skoop.Diagnose
