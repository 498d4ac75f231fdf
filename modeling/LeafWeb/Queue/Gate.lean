import LeafWeb.Lib.RoundRobin
import LeafWeb.Lib.Transition

/-! The ceiling gate of `da/queue.py`. One event is one section under `_fair_lock` or one operation on the
semaphore that `admit` and `fair_admit` share. -/

namespace LeafWeb.Queue

open Lib

inductive Phase
  -- Where the caller of `fair_admit` stands: in `event.wait`, in the body of the context
  -- manager, out by `QueueFull`, or out after the body.
  | blocked
  | inside
  | timedOut
  | exited
  deriving DecidableEq

structure Ticket where
  tenant : String
  (granted sem : Bool)
  phase : Phase

inductive AdmitPhase
  | holding
  | released
  | left
  deriving DecidableEq

structure Gate where
  (ceiling free : ℕ)
  queue : Rotation String ℕ
  tickets : List Ticket
  callers : List AdmitPhase

namespace Gate

def idle (n : ℕ) : Gate := ⟨n, n, .empty, [], []⟩

def acquire (g : Gate) : Option Gate :=
  match g.free with
  | 0 => none
  | n + 1 => some { g with free := n }

def releaseSlot (g : Gate) : Gate :=
  -- `BoundedSemaphore.release` refuses above its bound and `_release_slot` passes over that.
  if g.free < g.ceiling then { g with free := g.free + 1 } else g

def setTicket (g : Gate) (i : ℕ) (t : Ticket) : Gate := { g with tickets := g.tickets.set i t }

def setCaller (g : Gate) (i : ℕ) (p : AdmitPhase) : Gate :=
  { g with callers := g.callers.set i p }

def grant (g : Gate) (i : ℕ) : Gate :=
  match g.tickets[i]? with
  | some t => g.setTicket i { t with sem := true, granted := true }
  | none => g

end Gate

structure Moment where
  granted : Option ℕ
  gate : Gate

def fairPickLocked : Rotation String ℕ → Option ℕ × Rotation String ℕ := Rotation.pick true

def fairDispatchLoop : ℕ → Gate → List Moment × Gate
  | 0, g => ([], g)
  | fuel + 1, g =>
    if g.queue.fifos.rows = [] then ([], g)
    else
      match g.acquire with
      | none => ([], g)
      | some g₁ =>
        match fairPickLocked g₁.queue with
        | (none, queue) => ([], Gate.releaseSlot { g₁ with queue })
        | (some i, queue) =>
          let g₂ := Gate.grant { g₁ with queue } i
          let rest := fairDispatchLoop fuel g₂
          (⟨some i, g₂⟩ :: rest.1, rest.2)

/-- Every turn of the loop takes a permit, so one turn more than there are free permits is
enough. -/
def fairDispatchLocked (g : Gate) : List Moment × Gate := fairDispatchLoop (g.free + 1) g

namespace Gate

def register (g : Gate) (key : String) : Gate :=
  { g with
    queue := g.queue.enqueue key g.tickets.length
    tickets := g.tickets ++ [⟨key, false, false, .blocked⟩] }

def change (g : Gate) : List Moment × Gate := ([⟨none, g⟩], g)

def thenDispatch (g : Gate) : List Moment × Gate :=
  let r := fairDispatchLocked g
  (⟨none, g⟩ :: r.1, r.2)

def expire (g : Gate) (i : ℕ) (t : Ticket) : List Moment × Gate :=
  if t.granted then
    (g.releaseSlot.setTicket i { t with sem := false, phase := .timedOut }).thenDispatch
  else
    change { g.setTicket i { t with phase := .timedOut } with
      queue := g.queue.withdraw t.tenant i }

def leave (g : Gate) (i : ℕ) (t : Ticket) : List Moment × Gate :=
  (g.releaseSlot.setTicket i { t with sem := false, phase := .exited }).thenDispatch

end Gate

inductive GateEvent
  | register (tenantId : Option String)
  | enter (ticket : ℕ)
  | timeout (ticket : ℕ)
  | exit (ticket : ℕ)
  | acquire
  | release (caller : ℕ)
  | dispatch (caller : ℕ)

def gateStep (g : Gate) : GateEvent → List Moment × Gate
  | .register tenantId => (g.register (tenantId.getD "")).thenDispatch
  | .enter i =>
    match g.tickets[i]? with
    | some t =>
      if t.phase = .blocked ∧ t.granted then (g.setTicket i { t with phase := .inside }).change
      else ([], g)
    | none => ([], g)
  | .timeout i =>
    match g.tickets[i]? with
    | some t => if t.phase = .blocked then g.expire i t else ([], g)
    | none => ([], g)
  | .exit i =>
    match g.tickets[i]? with
    | some t => if t.phase = .inside then g.leave i t else ([], g)
    | none => ([], g)
  | .acquire =>
    match g.acquire with
    | some g' => Gate.change { g' with callers := g'.callers ++ [.holding] }
    | none => ([], g)
  | .release c =>
    if g.callers[c]? = some .holding then (g.releaseSlot.setCaller c .released).change
    else ([], g)
  | .dispatch c =>
    if g.callers[c]? = some .released then (g.setCaller c .left).thenDispatch else ([], g)

end LeafWeb.Queue
