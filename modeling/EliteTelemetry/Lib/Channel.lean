/-
  EliteTelemetry.Lib.Channel — Go's buffered channels.

  A send to a closed channel panics, also one that had been waiting for room; a send to a
  full one waits. A receive takes the oldest value, also from a closed channel; from one that
  is closed and empty it returns at once without a value. A second close panics.
-/

namespace EliteTelemetry.Lib.Channel

structure Chan (α : Type) where
  cap : Nat
  buf : List α
  closed : Bool
  deriving DecidableEq, Repr

inductive Sent (α : Type) where
  | ok (c : Chan α)
  | blocks
  | panics

inductive Received (α : Type) where
  | value (x : α) (c : Chan α)
  | closed
  | blocks

namespace Chan

variable {α : Type}

def make (cap : Nat) : Chan α := ⟨cap, [], false⟩

def send (c : Chan α) (x : α) : Sent α :=
  if c.closed then .panics else if c.buf.length < c.cap then .ok { c with buf := c.buf ++ [x] } else .blocks

def receive (c : Chan α) : Received α :=
  match c.buf with
  | x :: rest => .value x { c with buf := rest }
  | [] => if c.closed then .closed else .blocks

def close (c : Chan α) : Option (Chan α) := if c.closed then none else some { c with closed := true }

theorem send_ok {c c' : Chan α} {x : α} (h : c.send x = .ok c') :
    c.closed = false ∧ c.buf.length < c.cap ∧ c' = { c with buf := c.buf ++ [x] } := by
  unfold send at h
  split at h
  · cases h
  · rename_i hc
    split at h
    · rename_i hlt
      cases h
      exact ⟨by simpa using hc, hlt, rfl⟩
    · cases h

theorem send_panics {c : Chan α} {x : α} (h : c.send x = .panics) : c.closed = true := by
  unfold send at h
  split at h
  · assumption
  · split at h <;> cases h

theorem receive_value {c c' : Chan α} {x : α} (h : c.receive = .value x c') :
    c.buf = x :: c'.buf ∧ c'.closed = c.closed ∧ c'.cap = c.cap := by
  unfold receive at h
  split at h
  · rename_i hbuf
    cases h
    exact ⟨hbuf, rfl, rfl⟩
  · split at h <;> cases h

theorem receive_closed {c : Chan α} (h : c.receive = .closed) : c.buf = [] ∧ c.closed = true := by
  unfold receive at h
  split at h
  · cases h
  · rename_i hbuf
    split at h
    · exact ⟨hbuf, ‹_›⟩
    · cases h

theorem close_some {c c' : Chan α} (h : c.close = some c') : c.closed = false ∧ c' = { c with closed := true } := by
  unfold close at h
  split at h
  · cases h
  · rename_i hc
    cases h
    exact ⟨by simpa using hc, rfl⟩

theorem close_none {c : Chan α} (h : c.close = none) : c.closed = true := by
  unfold close at h
  split at h
  · assumption
  · cases h

end Chan

end EliteTelemetry.Lib.Channel
