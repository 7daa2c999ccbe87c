import GridMq.Aio.UsockAccept
import GridMq.Library.Transition
import GridMq.Transports.Conn

set_option autoImplicit false

/-!
# Bound endpoints (`src/transports/tcp/btcp.c`, `src/transports/ipc/bipc.c`)

An endpoint that listens, with the machines of its connections (`atcp.c`, `aipc.c`).  Both
transports work alike; they differ in how they make the address they listen at.  A
connection hears of its session what the session reports; what the machines below a session
tell each other are events of their own kind, in whose course sessions can act.
-/

namespace GridMq.Transports

open GridMq.Aio GridMq.Library

/-! ## Failures -/

/-- Where a check that fails stands. -/
inductive Site where
  /-- the checks of the address in `grid_btcp_start_listening`, `grid_bipc_start_listening` -/
  | address
  /-- the functions of the endpoint otherwise -/
  | endpoint
  /-- `grid_usock_accept`, `grid_usock_handler` and `grid_usock_stop` for a usock that
  listens or is accepted -/
  | accept
  /-- `grid_atcp_term`, `grid_aipc_term` -/
  | term
  | other
  deriving DecidableEq, Repr

/-- A check that ended the process. -/
structure Failure where
  site : Site
  abort : Abort
  deriving DecidableEq, Repr

/-- A call from a site. -/
def Site.call {α : Type} (site : Site) (x : Except Abort α) : Except Failure α :=
  match x with
  | .error e => .error ⟨site, e⟩
  | .ok a => .ok a

/-! ## Connections -/

/-- `GRID_ATCP_STATE_*`, `GRID_AIPC_STATE_*`. -/
inductive AcceptedState where
  | idle
  | accepting
  | active
  /-- STOPPING_STCP, STOPPING_SIPC -/
  | stoppingSession
  | stoppingUsock
  | done
  | stoppingSessionFinal
  | stopping
  deriving DecidableEq, Repr

/-- `GRID_ATCP_ACCEPTED`, `GRID_ATCP_ERROR`, `GRID_ATCP_STOPPED`, and those of aipc. -/
inductive AcceptedEvent where
  | accepted | error | stopped
  deriving DecidableEq, Repr

/-- Who owns the listening usock. -/
inductive Owner where
  | endpoint
  | connection (i : Nat)
  deriving DecidableEq, Repr

/-- `struct grid_atcp`, `struct grid_aipc`. -/
structure Accepted where
  fsm : FsmState := .idle
  state : AcceptedState := .idle
  usock : AcceptedUsock := {}
  session : SessionFsm := {}
  /-- `listener` is set -/
  listener : Bool := false
  /-- `listener_owner`; `none` where its `fsm` is NULL -/
  listenerOwner : Option Owner := none
  deriving DecidableEq, Repr

/-- The events in the queue of the context, with whom they are for or from. -/
inductive BoundEvent where
  | listener (owner : Owner) (e : UsockEvent)
  | usock (i : Nat) (e : UsockEvent)
  | session (i : Nat) (e : SessionEvent)
  | connection (i : Nat) (e : AcceptedEvent)
  | retry (e : TimerEvent)
  /-- between the machines below the session of a connection -/
  | inner (i : Nat)
  deriving DecidableEq, Repr

/-- The `struct grid_fsm_event` of the machines. -/
inductive BoundItem where
  | listener (i : Usock.Item)
  | usock (i : Nat) (item : Usock.Item)
  | session (i : Nat) (e : SessionEvent)
  | connection (i : Nat) (e : AcceptedEvent)
  | retry (e : TimerEvent)
  | inner (i : Nat)
  deriving DecidableEq, Repr

/-- Which of them an event is raised through. -/
def BoundEvent.item : BoundEvent → BoundItem
  | .listener _ e => .listener (Usock.item e)
  | .usock i e => .usock i (Usock.item e)
  | .session i e => .session i e
  | .connection i e => .connection i e
  | .retry e => .retry e
  | .inner i => .inner i

/-- Events other than STOPPED of the usock of a connection. -/
def BoundEvent.usockActive (i : Nat) : BoundEvent → Bool
  | .usock j e => j == i && e != .stopped
  | _ => false

/-! ## Endpoints -/

/-- `GRID_BTCP_STATE_*`, `GRID_BIPC_STATE_*`, without LISTENING, which nothing uses. -/
inductive BoundState where
  | idle
  | active
  /-- STOPPING_ATCP, STOPPING_AIPC -/
  | stoppingAtcp
  | stoppingUsock
  /-- STOPPING_ATCPS, STOPPING_AIPCS -/
  | stoppingAtcps
  | waiting
  | closing
  | stoppingBackoff
  deriving DecidableEq, Repr

/-- `struct grid_btcp`, `struct grid_bipc`, with the queue of the context and what its runs
are judged by. -/
structure Bound (α : Type) where
  /-- the socket options that the endpoint reads when it listens -/
  option : α
  fsm : FsmState := .idle
  state : BoundState := .idle
  usock : Listener := {}
  /-- the owner of `usock` -/
  owner : Owner := .endpoint
  /-- `atcp` or `aipc`: the connection being accepted at the moment -/
  atcp : Option Nat := none
  /-- `atcps` or `aipcs`: the accepted connections -/
  atcps : List Nat := []
  /-- the connections that are allocated -/
  conns : Nat → Option Accepted := fun _ => none
  /-- the connection that is allocated next -/
  nextConn : Nat := 0
  retry : Backoff
  stat : EpStat := {}
  events : List BoundEvent := []
  created : Bool := false
  /-- calls of `grid_atcp_stop` -/
  stops : List Nat := []
  /-- calls of `grid_atcp_term` -/
  terms : List Nat := []
  /-- connections that were freed -/
  frees : List Nat := []
  /-- calls of `grid_epbase_stopped` -/
  reports : Nat := 0
  /-- the descriptors that `accept` has returned -/
  accepted : List Nat := []
  /-- the descriptors that usocks were given, with the connection of the usock -/
  given : List (Nat × Nat) := []

/-- What the operating system and the sessions answer in a step. -/
structure ListenAnswers (ρ : Type) where
  /-- what is asked for to make the address -/
  prep : ρ
  socket : Bool := true
  bind : Bool := true
  listen : Bool := true
  accept : AcceptAnswer := .error .eagain
  errnum : Int := 0
  /-- the sessions that stop at once when they are asked to -/
  now : List Nat := []
  /-- the connections whose sessions raise events for the machines below them -/
  inners : List Nat := []
  /-- `grid_worker_cancel` finds the task in the worker's queue -/
  cancelled : Bool := true
  deriving DecidableEq, Repr

/-- What the transports do each in its own way. -/
structure ListenTransport (α ρ : Type) where
  /-- the checks of `grid_btcp_create`, which come before the machine is started -/
  accepts : α → Bool
  /-- how the address is made in `grid_btcp_start_listening` -/
  resolve : α → ρ → Except Abort Unit
  /-- what is done before the usock is started -/
  prepare : ρ → Except Abort Unit
  /-- the end of the shutdown functions: `grid_fsm_bad_action`, `grid_fsm_bad_state` -/
  unforeseen : Abort

namespace Bound

variable {α ρ : Type}

/-- `grid_fsm_raise`. -/
def raise (self : Bound α) (e : BoundEvent) : Except Failure (Bound α) := do
  let events ← Site.other.call (raiseEvent BoundEvent.item self.events e)
  return { self with events := events }

/-- An event that a call returns. -/
def raise? (self : Bound α) : Option BoundEvent → Except Failure (Bound α)
  | none => .ok self
  | some e => self.raise e

/-- A connection is reached through its pointer. -/
def conn (self : Bound α) (i : Nat) : Except Failure Accepted :=
  match self.conns i with
  | some c => .ok c
  | none => .error ⟨.other, .nullPointer⟩

def setConn (self : Bound α) (i : Nat) (c : Option Accepted) : Bound α :=
  { self with conns := fun j => if j = i then c else self.conns j }

/-- `grid_atcp_isidle`. -/
def connIsIdle (self : Bound α) (i : Nat) (c : Accepted) : Bool :=
  c.fsm == .idle && !decide (BoundEvent.connection i .stopped ∈ self.events)

/-- `grid_stcp_isidle`. -/
def sessionIsIdle (self : Bound α) (i : Nat) (c : Accepted) : Bool :=
  c.session.isIdle (decide (BoundEvent.session i .stopped ∈ self.events))

/-- `grid_usock_isidle` for a connection. -/
def usockIsIdle (self : Bound α) (i : Nat) (c : Accepted) : Bool :=
  c.usock.usock.isIdle (decide (BoundEvent.usock i .stopped ∈ self.events))

/-- The STOPPED event of the listening usock is in the queue. -/
def listenerStopped (self : Bound α) : Bool :=
  self.events.any fun e => e.item == .listener .stopped

/-- `grid_usock_isidle` for the listening usock. -/
def listenerIsIdle (self : Bound α) : Bool := self.usock.usock.isIdle self.listenerStopped

/-- `grid_backoff_isidle`. -/
def retryIsIdle (self : Bound α) : Bool :=
  self.retry.isIdle (decide (BoundEvent.retry .stopped ∈ self.events))

/-- `grid_epbase_stat_increment`. -/
def increment (self : Bound α) (name : Stat) (n : Int) : Except Failure (Bound α) := do
  let stat ← Site.other.call (self.stat.increment name n)
  return { self with stat := stat }

/-- `grid_epbase_set_error`. -/
def setError (self : Bound α) (errnum : Int) : Except Failure (Bound α) := do
  let stat ← Site.other.call (self.stat.setError errnum)
  return { self with stat := stat }

/-- `grid_epbase_clear_error`. -/
def clearError (self : Bound α) : Except Failure (Bound α) := do
  let stat ← Site.other.call self.stat.clearError
  return { self with stat := stat }

/-- `grid_backoff_start`. -/
def startRetry (self : Bound α) : Except Failure (Bound α) := do
  let retry ← Site.other.call (self.retry.start (decide (BoundEvent.retry .stopped ∈ self.events)))
  return { self with retry := retry }

/-- `grid_backoff_stop`. -/
def stopRetry (self : Bound α) : Except Failure (Bound α) := do
  let retry ← Site.other.call self.retry.stop
  return { self with retry := retry }

/-- `grid_usock_stop` for the listening usock. -/
def stopListener (self : Bound α) : Except Failure (Bound α) := do
  let r ← Site.accept.call self.usock.stop
  let self := { self with usock := r.1 }
  self.raise? (r.2.map (.listener self.owner))

/-! ## Accepting -/

/-- The descriptor that `accept` returns, if it returns one. -/
def descriptors : AcceptAnswer → List Nat
  | .fd s => [s]
  | .error _ => []

/-- `grid_usock_accept` for the usock of a connection and the listening usock. -/
def accept (self : Bound α) (i : Nat) (answer : AcceptAnswer) : Except Failure (Bound α) := do
  let c ← self.conn i
  let p ← Site.accept.call (c.usock.accept i self.usock
    (decide (BoundEvent.usock i .stopped ∈ self.events)) answer)
  let self := { self.setConn i (some { c with usock := p.accepted }) with
    usock := p.listener
    accepted := self.accepted ++ descriptors answer
    given := self.given ++ (p.given.map fun s => (s, i)).toList }
  self.raise? (p.event.map fun e =>
    if e = .acceptError then .listener self.owner e else .usock i e)

/-- `grid_usock_swap_owner`, by which a connection takes the listening usock. -/
def lendListener (self : Bound α) (i : Nat) (c : Accepted) : Bound α :=
  { self.setConn i (some { c with listener := true, listenerOwner := some self.owner }) with
    owner := .connection i }

/-- `grid_atcp_start`. -/
def startConn (self : Bound α) (i : Nat) (answer : AcceptAnswer) :
    Except Failure (Bound α) := do
  let c ← self.conn i
  Site.other.call (gridAssert (c.state = .idle))
  let self := self.lendListener i c
  Site.other.call (gridAssert (self.connIsIdle i c = true))
  -- `grid_atcp_handler` with the START action
  let self ← self.accept i answer
  let c ← self.conn i
  return self.setConn i (some { c with state := .accepting, fsm := .active })

/-- `grid_alloc` and `grid_atcp_init`. -/
def allocate (self : Bound α) : Bound α :=
  { self.setConn self.nextConn (some {}) with
    atcp := some self.nextConn
    nextConn := self.nextConn + 1 }

/-- `grid_btcp_start_accepting`. -/
def startAccepting (self : Bound α) (answer : AcceptAnswer) : Except Failure (Bound α) := do
  Site.endpoint.call (gridAssert (self.atcp = none))
  self.allocate.startConn self.nextConn answer

/-- `grid_btcp_start_listening`, from the point where there is an address. -/
def listenAt (self : Bound α) (os : ListenAnswers ρ) : Except Failure (Bound α) := do
  match ← Site.other.call (self.usock.usock.start self.listenerStopped os.socket) with
  | none => do
      let self ← self.startRetry
      return { self with state := .waiting }
  | some usock => do
      let self := { self with usock := { self.usock with usock := usock } }
      if (← Site.other.call (self.usock.usock.bind os.bind)) = false then do
        let self ← self.stopListener
        return { self with state := .closing }
      else
        match ← Site.other.call (self.usock.listen os.listen) with
        | none => do
            let self ← self.stopListener
            return { self with state := .closing }
        | some listener => do
            let self ← { self with usock := listener }.startAccepting os.accept
            return { self with state := .active }

/-- `grid_btcp_start_listening`, `grid_bipc_start_listening`. -/
def startListening (T : ListenTransport α ρ) (self : Bound α) (os : ListenAnswers ρ) :
    Except Failure (Bound α) := do
  Site.address.call (T.resolve self.option os.prep)
  Site.other.call (T.prepare os.prep)
  self.listenAt os

/-! ## The machine of a connection -/

/-- The end of the shutdown of a session: it gives its usock back. -/
def finishSession (self : Bound α) (i : Nat) : Except Failure (Bound α) := do
  let c ← self.conn i
  (self.setConn i (some { c with session := c.session.finish.1 })).raise
    (.session i c.session.finish.2)

/-- `grid_stcp_stop`, `grid_sipc_stop`. -/
def stopSession (self : Bound α) (os : ListenAnswers ρ) (i : Nat) :
    Except Failure (Bound α) := do
  let c ← self.conn i
  let self := self.setConn i (some { c with session := c.session.stop })
  let self ← if c.session.fsm = .active ∧ i ∈ os.now then self.finishSession i else .ok self
  return { self with events := self.events ++ if i ∈ os.inners then [.inner i] else [] }

/-- `grid_usock_stop` for a connection. -/
def stopUsock (self : Bound α) (i : Nat) : Except Failure (Bound α) := do
  let c ← self.conn i
  let r ← Site.accept.call (c.usock.stop self.usock)
  let self := { self.setConn i (some { c with usock := r.1 }) with usock := r.2.1 }
  self.raise? (r.2.2.map (.usock i))

/-- `grid_usock_swap_owner`, which gives the listening usock back. -/
def returnListener (self : Bound α) (i : Nat) (c : Accepted) : Bound α :=
  { self.setConn i (some { c with listener := false, listenerOwner := none }) with
    owner := c.listenerOwner.getD self.owner }

/-- A connection that stops gives the listening usock back if it still has it. -/
def releaseListener (self : Bound α) (i : Nat) (c : Accepted) : Except Failure (Bound α) :=
  if c.listener = true then do
    Site.other.call (gridAssert (c.listenerOwner ≠ none))
    return self.returnListener i c
  else .ok self

/-- `grid_atcp_handler` for an event. -/
def connHandler (self : Bound α) (os : ListenAnswers ρ) (i : Nat) (c : Accepted)
    (e : BoundEvent) : Except Failure (Bound α) :=
  match c.state with
  | .idle => .error ⟨.other, .badSource⟩
  | .accepting =>
      match e with
      | .usock _ .accepted => do
          let self ← self.clearError
          -- the sizes of the send buffer and of the receive buffer
          Site.accept.call c.usock.usock.setsockopt
          Site.accept.call c.usock.usock.setsockopt
          let self ← (self.returnListener i c).raise (.connection i .accepted)
          let usock ← Site.accept.call c.usock.activate
          let session ← Site.other.call
            (c.session.start (decide (BoundEvent.session i .stopped ∈ self.events)))
          let self := self.setConn i (some { c with
            listener := false, listenerOwner := none, usock := usock, session := session,
            state := .active })
          let self ← self.increment .acceptedConnections 1
          return { self with events := self.events ++ if i ∈ os.inners then [.inner i] else [] }
      | .usock _ _ => .error ⟨.other, .badAction⟩
      | .listener _ .acceptError => do
          let self ← self.setError os.errnum
          let self ← self.increment .acceptErrors 1
          self.accept i os.accept
      | .listener _ _ => .error ⟨.other, .badAction⟩
      | _ => .error ⟨.other, .badSource⟩
  | .active =>
      match e with
      | .session _ .error => do
          let self ← self.stopSession os i
          let c ← self.conn i
          (self.setConn i (some { c with state := .stoppingSession })).increment
            .brokenConnections 1
      | .session _ _ => .error ⟨.other, .badAction⟩
      | _ => .error ⟨.other, .badSource⟩
  | .stoppingSession =>
      match e with
      -- the value of GRID_USOCK_SHUTDOWN, which is also let through, is no event of a session
      | .session _ .stopped => do
          let self ← self.stopUsock i
          let c ← self.conn i
          return self.setConn i (some { c with state := .stoppingUsock })
      | .session _ _ => .error ⟨.other, .badAction⟩
      | _ => .error ⟨.other, .badSource⟩
  | .stoppingUsock =>
      match e with
      | .usock _ .shutdown => .ok self
      | .usock _ .stopped => do
          let self ← self.raise (.connection i .error)
          return self.setConn i (some { c with state := .done })
      | .usock _ _ => .error ⟨.other, .badAction⟩
      | _ => .error ⟨.other, .badSource⟩
  | .done => .error ⟨.other, .badState⟩
  | .stoppingSessionFinal => .error ⟨.other, .badState⟩
  | .stopping => .error ⟨.other, .badState⟩

/-- `grid_atcp_shutdown` in the STOPPING state. -/
def connShutdownStopping (self : Bound α) (i : Nat) : Except Failure (Bound α) := do
  let c ← self.conn i
  if self.usockIsIdle i c = false then return self
  else do
    let self ← self.releaseListener i c
    let c ← self.conn i
    Site.other.call (gridAssert (c.fsm = .stopping))
    let self ← self.raise (.connection i .stopped)
    return self.setConn i (some { c with state := .idle, fsm := .idle })

/-- `grid_atcp_shutdown` in the STOPPING_STCP_FINAL state. -/
def connShutdownSession (self : Bound α) (i : Nat) : Except Failure (Bound α) := do
  let c ← self.conn i
  if self.sessionIsIdle i c = false then return self
  else do
    let self ← self.stopUsock i
    let c ← self.conn i
    (self.setConn i (some { c with state := .stopping })).connShutdownStopping i

/-- `grid_atcp_shutdown` for an event. -/
def connShutdown (T : ListenTransport α ρ) (self : Bound α) (i : Nat) (c : Accepted) :
    Except Failure (Bound α) :=
  match c.state with
  | .stoppingSessionFinal => self.connShutdownSession i
  | .stopping => self.connShutdownStopping i
  | _ => .error ⟨.other, T.unforeseen⟩

/-- A session that has not stopped is asked to when its connection stops. -/
def dropSession (self : Bound α) (os : ListenAnswers ρ) (i : Nat) (c : Accepted) :
    Except Failure (Bound α) :=
  if self.sessionIsIdle i c = false then do
    let self ← self.increment .droppedConnections 1
    self.stopSession os i
  else .ok self

/-- `grid_atcp_stop`, with the STOP action of `grid_atcp_shutdown`. -/
def stopConn (self : Bound α) (os : ListenAnswers ρ) (i : Nat) : Except Failure (Bound α) := do
  let self := { self with stops := self.stops ++ [i] }
  let c ← self.conn i
  if c.fsm = .active then do
    let c := { c with fsm := .stopping }
    let self ← (self.setConn i (some c)).dropSession os i c
    let c ← self.conn i
    (self.setConn i (some { c with state := .stoppingSessionFinal })).connShutdownSession i
  else return self

/-- An event for a connection. -/
def feedConn (T : ListenTransport α ρ) (self : Bound α) (os : ListenAnswers ρ) (i : Nat)
    (e : BoundEvent) : Except Failure (Bound α) := do
  let c ← self.conn i
  if c.fsm = .stopping then self.connShutdown T i c else self.connHandler os i c e

/-- `grid_atcp_term`, `grid_aipc_term`. -/
def termConn (self : Bound α) (os : ListenAnswers ρ) (i : Nat) : Except Failure (Bound α) := do
  let c ← self.conn i
  Site.term.call (gridAssert (c.state = .idle))
  Site.term.call (gridAssert (i ∉ self.atcps))
  Site.term.call (gridAssert (BoundEvent.connection i .error ∉ self.events ∧
    BoundEvent.connection i .accepted ∉ self.events))
  -- `grid_stcp_term`
  Site.term.call (gridAssert (self.sessionIsIdle i c = true ∧
    BoundEvent.session i .error ∉ self.events))
  Site.term.call (c.usock.term (self.events.any (BoundEvent.usockActive i))
    (decide (BoundEvent.usock i .stopped ∈ self.events)) os.cancelled)
  Site.term.call (gridAssert (self.connIsIdle i c = true))
  return { self with terms := self.terms ++ [i] }

/-- `grid_free`. -/
def freeConn (self : Bound α) (i : Nat) : Bound α :=
  { self.setConn i none with frees := self.frees ++ [i] }

/-! ## The machine of the endpoint -/

/-- A connection that has stopped is taken off the list, terminated and freed. -/
def release (self : Bound α) (os : ListenAnswers ρ) (i : Nat) : Except Failure (Bound α) := do
  Site.endpoint.call (gridAssert (i ∈ self.atcps))
  let self ← { self with atcps := self.atcps.erase i }.termConn os i
  return self.freeConn i

/-- `grid_btcp_handler` in the ACTIVE state, for an event of the connection `i`. -/
def handlerActive (self : Bound α) (os : ListenAnswers ρ) (i : Nat) (e : AcceptedEvent) :
    Except Failure (Bound α) :=
  if self.atcp = some i then
    match e with
    | .accepted => do
        Site.endpoint.call (gridAssert (i ∉ self.atcps))
        let self := { self with atcps := self.atcps ++ [i], atcp := none }
        self.startAccepting os.accept
    | _ => .error ⟨.endpoint, .badAction⟩
  else
    match e with
    | .error => self.stopConn os i
    | .stopped => self.release os i
    | .accepted => .error ⟨.endpoint, .badAction⟩

/-- `grid_btcp_handler` for an event. -/
def handler (T : ListenTransport α ρ) (self : Bound α) (os : ListenAnswers ρ) (e : BoundEvent) :
    Except Failure (Bound α) :=
  match self.state with
  | .active =>
      match e with
      | .connection i e => self.handlerActive os i e
      | _ => .error ⟨.endpoint, .assertion⟩
  | .closing =>
      match e with
      | .listener _ .shutdown => .ok self
      | .listener _ .stopped => do
          let self ← self.startRetry
          return { self with state := .waiting }
      | .listener _ _ => .error ⟨.endpoint, .badAction⟩
      | _ => .error ⟨.endpoint, .badSource⟩
  | .waiting =>
      match e with
      | .retry .timeout => do
          let self ← self.stopRetry
          return { self with state := .stoppingBackoff }
      | .retry _ => .error ⟨.endpoint, .badAction⟩
      | _ => .error ⟨.endpoint, .badSource⟩
  | .stoppingBackoff =>
      match e with
      | .retry .stopped => self.startListening T os
      | .retry _ => .error ⟨.endpoint, .badAction⟩
      | _ => .error ⟨.endpoint, .badSource⟩
  | .idle => .error ⟨.endpoint, .badSource⟩
  | .stoppingAtcp => .error ⟨.endpoint, .badState⟩
  | .stoppingUsock => .error ⟨.endpoint, .badState⟩
  | .stoppingAtcps => .error ⟨.endpoint, .badState⟩

/-- The label `atcps_stopping` of `grid_btcp_shutdown`. -/
def shutdownEnd (self : Bound α) : Except Failure (Bound α) :=
  if self.atcps = [] then do
    -- `grid_fsm_stopped_noevent`
    Site.endpoint.call (gridAssert (self.fsm = .stopping))
    return { self with state := .idle, fsm := .idle, reports := self.reports + 1 }
  else .ok self

/-- `grid_btcp_shutdown` in the STOPPING_USOCK state. -/
def shutdownUsock (self : Bound α) (os : ListenAnswers ρ) : Except Failure (Bound α) :=
  if self.listenerIsIdle = false ∨ self.retryIsIdle = false then .ok self
  else do
    let self ← self.atcps.foldlM (fun self i => self.stopConn os i) self
    let self := { self with state := .stoppingAtcps }
    self.shutdownEnd

/-- `grid_btcp_shutdown` in the STOPPING_ATCP state. -/
def shutdownAtcp (self : Bound α) (os : ListenAnswers ρ) : Except Failure (Bound α) :=
  match self.atcp with
  | none => .error ⟨.endpoint, .nullPointer⟩
  | some i => do
      let c ← self.conn i
      if self.connIsIdle i c = false then return self
      else do
        let self ← self.termConn os i
        let self ← { self.freeConn i with atcp := none }.stopListener
        let self := { self with state := .stoppingUsock }
        self.shutdownUsock os

/-- `grid_btcp_shutdown` for an event. -/
def shutdown (T : ListenTransport α ρ) (self : Bound α) (os : ListenAnswers ρ) (e : BoundEvent) :
    Except Failure (Bound α) :=
  match self.state with
  | .stoppingAtcp => self.shutdownAtcp os
  | .stoppingUsock => self.shutdownUsock os
  | .stoppingAtcps =>
      match e with
      | .connection i .stopped => do
          let self ← self.release os i
          self.shutdownEnd
      | _ => .error ⟨.endpoint, .assertion⟩
  | _ => .error ⟨.endpoint, T.unforeseen⟩

/-- `grid_btcp_create`. -/
def create (T : ListenTransport α ρ) (self : Bound α) (os : ListenAnswers ρ) :
    Except Failure (Bound α) :=
  if T.accepts self.option = true then do
    -- `grid_fsm_start`
    Site.other.call (gridAssert (self.fsm = .idle))
    match self.state with
    | .idle => do
        let self ← { self with created := true }.startListening T os
        return { self with fsm := .active }
    | _ => .error ⟨.endpoint, .badAction⟩
  else .ok self

/-- `grid_btcp_stop`, with the STOP action of `grid_btcp_shutdown`. -/
def stop (self : Bound α) (os : ListenAnswers ρ) : Except Failure (Bound α) :=
  if self.fsm = .active then do
    let self ← { self with fsm := .stopping }.stopRetry
    match self.atcp with
    | some i => do
        let self ← self.stopConn os i
        let self := { self with state := .stoppingAtcp }
        self.shutdownAtcp os
    | none => do
        let self := { self with state := .stoppingUsock }
        self.shutdownUsock os
  else .ok self

/-- The context hands out its next event. -/
def deliver (T : ListenTransport α ρ) (self : Bound α) (os : ListenAnswers ρ) :
    Except Failure (Bound α) :=
  match self.events with
  | [] => .ok self
  | e :: events =>
      let self := { self with events := events }
      match e with
      | .inner _ => .ok self
      | .usock i _ => self.feedConn T os i e
      | .session i _ => self.feedConn T os i e
      | .listener (.connection i) _ => self.feedConn T os i e
      | _ => if self.fsm = .stopping then self.shutdown T os e else self.handler T os e

/-! ## The worker -/

/-- The worker takes the next task of the listening usock. -/
def listenerTask (self : Bound α) : Except Failure (Bound α) := do
  let r ← Site.accept.call self.usock.runTask
  let self ← { self with usock := r.1 }.raise? (r.2.1.map (.listener self.owner))
  match r.2.2 with
  | none => return self
  | some i => do
      let c ← self.conn i
      let d ← Site.accept.call c.usock.actionDone
      (self.setConn i (some { c with usock := d.1 })).raise? (d.2.map (.usock i))

/-- The listening usock is readable. -/
def listenerIn (self : Bound α) (answer : AcceptAnswer) : Except Failure (Bound α) := do
  let r ← Site.accept.call (self.usock.fdIn answer)
  let called := self.usock.usock.fsm ≠ .stopping ∧ self.usock.usock.state = .accepting
  let self := { self with
    usock := r.1
    accepted := self.accepted ++ if called then descriptors answer else [] }
  match r.2 with
  | .none => return self
  | .failed => self.raise (.listener self.owner .acceptError)
  | .taken i s => do
      let c ← self.conn i
      let t ← Site.accept.call c.usock.take
      let self := { self.setConn i (some { c with usock := t.1 }) with
        given := self.given ++ [(s, i)] }
      self.raise? (t.2.map (.usock i))

/-- The worker and the usock of a connection.  What a task asks the poller for is without
effect where the descriptor is closed. -/
def connWork (self : Bound α) (i : Nat) (w : Usock.Work) : Except Failure (Bound α) := do
  let c ← self.conn i
  let usock := c.usock.usock
  if w = .task ∧ usock.fd = false ∧ usock.tasks.head? ≠ some .stop then
    return self.setConn i (some { c with
      usock := { c.usock with usock := { usock with tasks := usock.tasks.tail } } })
  else do
    let r ← Site.other.call (usock.attempt w)
    (self.setConn i (some { c with usock := { c.usock with usock := r.1 } })).raise?
      (r.2.map (.usock i))

/-! ## Steps -/

/-- What can happen. -/
inductive Label (α ρ : Type) where
  | create (os : ListenAnswers ρ)
  | stop (os : ListenAnswers ρ)
  | deliver (os : ListenAnswers ρ)
  /-- a call of `grid_setsockopt` -/
  | setopt (option : α)
  /-- the worker and the retry timer -/
  | retry (w : Backoff.Work)
  /-- the worker and the listening usock -/
  | listenerTask
  | listenerIn (answer : AcceptAnswer)
  /-- the worker and the usock of a connection whose session does not hold it -/
  | connWork (i : Nat) (w : Usock.Work)
  /-- a session and the worker use the usock of a connection -/
  | session (i : Nat) (u : Usock)
  /-- a session ends -/
  | sessionError (i : Nat)
  /-- a session has stopped -/
  | sessionStopped (i : Nat)
  /-- a session has the machines below it hear of something -/
  | inner (i : Nat)

/-- The sessions can act: the worker or a call of the user has entered the context, or one
of their own events is being handled. -/
def Turn (self : Bound α) : Prop := ∀ e, self.events.head? = some e → ∃ i, e = .inner i

instance (self : Bound α) : Decidable self.Turn :=
  decidable_of_iff (self.events.head?.all fun e => match e with
    | .inner _ => true
    | _ => false) <| by
      rw [Turn]
      cases self.events.head? with
      | none => simp
      | some e => cases e <;> simp

/-- When it can.  Whoever enters the context does so when its queue is empty.  The poller
has nothing to tell of a descriptor that is closed.  A usock that a session holds is any that
a session can hold. -/
def Enabled (self : Bound α) : Label α ρ → Prop
  | .create _ => self.created = false ∧ self.events = []
  | .stop _ => self.created = true ∧ self.events = []
  | .deliver _ => self.events ≠ []
  | .setopt _ => self.events = []
  | .retry w => self.events = [] ∧ self.retry.Ready w
  | .listenerTask => self.events = [] ∧ self.usock.usock.tasks ≠ []
  | .listenerIn _ => self.events = [] ∧ self.usock.usock.pollIn = true
  | .connWork i w =>
      self.events = [] ∧ ∃ c, self.conns i = some c ∧ c.session.usock = false ∧
        c.usock.usock.Waits w ∧ (w = .task ∨ c.usock.usock.fd = true)
  | .session i u =>
      self.Turn ∧ u.Held ∧ u.Tidy ∧ ∃ c, self.conns i = some c ∧ c.session.usock = true
  | .sessionError i =>
      self.Turn ∧ ∃ c, self.conns i = some c ∧ c.session.fsm = .active ∧ c.session.done = false
  | .sessionStopped i =>
      self.Turn ∧ ∃ c, self.conns i = some c ∧ c.session.fsm = .stopping
  | .inner i => self.Turn ∧ ∃ c, self.conns i = some c ∧ c.session.usock = true

instance (self : Bound α) (l : Label α ρ) : Decidable (self.Enabled l) :=
  match l with
  | .create _ => inferInstanceAs (Decidable (_ ∧ _))
  | .stop _ => inferInstanceAs (Decidable (_ ∧ _))
  | .deliver _ => inferInstanceAs (Decidable (_ ≠ _))
  | .setopt _ => inferInstanceAs (Decidable (_ = _))
  | .retry _ => inferInstanceAs (Decidable (_ ∧ _))
  | .listenerTask => inferInstanceAs (Decidable (_ ∧ _))
  | .listenerIn _ => inferInstanceAs (Decidable (_ ∧ _))
  | .connWork i w => inferInstanceAs (Decidable (self.events = [] ∧ ∃ c ∈ self.conns i,
      c.session.usock = false ∧ c.usock.usock.Waits w ∧ (w = .task ∨ c.usock.usock.fd = true)))
  | .session i u => inferInstanceAs (Decidable (self.Turn ∧ u.Held ∧ u.Tidy ∧
      ∃ c ∈ self.conns i, c.session.usock = true))
  | .sessionError i => inferInstanceAs (Decidable (self.Turn ∧ ∃ c ∈ self.conns i,
      c.session.fsm = .active ∧ c.session.done = false))
  | .sessionStopped i => inferInstanceAs (Decidable (self.Turn ∧ ∃ c ∈ self.conns i,
      c.session.fsm = .stopping))
  | .inner i => inferInstanceAs (Decidable (self.Turn ∧ ∃ c ∈ self.conns i,
      c.session.usock = true))

/-- One step. -/
def next (T : ListenTransport α ρ) (self : Bound α) : Label α ρ → Except Failure (Bound α)
  | .create os => self.create T os
  | .stop os => self.stop os
  | .deliver os => self.deliver T os
  | .setopt option => .ok { self with option := option }
  | .retry w => do
      let r ← Site.other.call (self.retry.work w)
      let self := { self with retry := r.1 }
      self.raise? (r.2.map .retry)
  | .listenerTask => self.listenerTask
  | .listenerIn answer => self.listenerIn answer
  | .connWork i w => self.connWork i w
  | .session i u => do
      let c ← self.conn i
      return self.setConn i (some { c with usock := { c.usock with usock := u } })
  | .sessionError i => do
      let c ← self.conn i
      (self.setConn i (some { c with session := c.session.fail.1 })).raise
        (.session i c.session.fail.2)
  | .sessionStopped i => self.finishSession i
  | .inner i => .ok { self with events := self.events ++ [.inner i] }

/-- The runs of an endpoint with the reconnect intervals of its socket. -/
def system (T : ListenTransport α ρ) (minivl maxivl : Int) : System (Bound α) (Label α ρ) where
  init s := ∃ option, s = { option := option, retry := { minivl := minivl, maxivl := maxivl } }
  step s l s' := s.Enabled l ∧ s.next T l = .ok s'

/-- Steps that an endpoint which was stopped still has to see. -/
def Label.Pending : Label α ρ → Prop
  | .deliver _ => True
  | .retry _ => True
  | .listenerTask => True
  | .connWork _ w => w = .task
  | .sessionStopped _ => True
  | _ => False

end Bound

end GridMq.Transports
