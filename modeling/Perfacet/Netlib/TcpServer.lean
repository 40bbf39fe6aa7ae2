import Mathlib.Logic.Function.Basic
import Perfacet.Lib.UnorderedMap
import Perfacet.Netlib.TcpConnection

/-!
# The connections of a server

A `TcpServer` whose connections all live on the main loop. A connection is an object with owners:
the table of the server, tasks in the queue of the loop, a handler that is running, and whoever
else has a `shared_ptr` to it. It is destroyed with its last owner, and its socket with it. The
kernel then forgets the descriptor, and may give it to the next connection.

epoll and the list of active channels hold plain pointers to the channels of the connections.

`flushAll` asks whether a connection is still there, and then flushes it. It does not keep the
connection meanwhile, so another thread may give up the last owner after the question, or in the
middle of the flush; what the flush does then, it does to what has been destroyed.

Connections are shut down on the loop thread only; other threads may send. The code that is
called back may run in every phase of the loop. The kernel adds every descriptor to epoll that is
not there (`EPOLL_CTL_ADD` does not fail for want of memory or watches), and the server is not
stopped.

## Main definitions

* `TcpServer` — the connections, their owners, and where the loop stands
* `TcpServer.machine` — the server under all orders of events
* `TcpServer.givesUp` — the last owner of the connection that `flushAll` is about to use goes
-/

namespace Perfacet

/-- A connection with its channel, and how often `closeCb` has been called. -/
structure ServerConn where
  fd : ℕ
  conn : TcpConnection := {}
  inEpoll : Bool := false
  closes : ℕ := 0

/-- What is queued in the loop, with the connection that it owns. -/
inductive ServerTask
  | removeConnection (c : ℕ)
  | sendInLoop (c : ℕ) (data : Bytes)
  deriving DecidableEq, Repr

def ServerTask.conn : ServerTask → ℕ
  | removeConnection c => c
  | sendInLoop c _ => c

/-- What epoll reports of a channel: an error or a hangup, something to read, room to write. -/
structure Revents where
  err : Bool := false
  readable : Bool := false
  writable : Bool := false
  deriving DecidableEq, Repr

inductive Handler
  | error | read | write
  deriving DecidableEq, Repr

/-- `Channel::handleEvent`: the callbacks for what is reported, in order. -/
def Revents.handlers (r : Revents) : List Handler :=
  if r.err then [.error]
  else (if r.readable then [.read] else []) ++ if r.writable then [.write] else []

/-- A callback of the channel; `closes` if there is nothing more to read, `taken` is what the socket
takes. A connection that is closed has removed its callbacks. -/
def Handler.run (closes : Bool) (taken : List ℕ) (h : Handler) (t : TcpConnection) :
    TcpConnection :=
  if t.state = .disconnected then t
  else
    match h with
    | .error => t.handleClose
    | .read => if closes then t.handleClose else t
    | .write => t.handleWrite taken

/-- Where the loop stands: between `doPending` and `poll`, in `flushAll` between the test of an
owner and the call, in the call where it is about to drop the frames of a closed connection, in
the handlers of the active channels, and in `doPending`. A channel is that of a connection or
another one; the tasks that have been run live until `doPending` ends. -/
inductive ServerPhase
  | idle
  | flushing (c : ℕ)
  | dropping (c : ℕ)
  | dispatching (active : List (Option (ℕ × Revents))) (current : Option (ℕ × List Handler))
  | pending (left ran : List ServerTask)

/-- The connection that `flushAll` is about to use. -/
def ServerPhase.flushed : ServerPhase → Option ℕ
  | flushing c | dropping c => some c
  | idle | dispatching _ _ | pending _ _ => none

/-- The server. Connections are numbered as they are made; `fault` is set when one is used that has
been destroyed. -/
structure TcpServer where
  heap : ℕ → Option ServerConn := fun _ => none
  count : ℕ := 0
  conns : UnorderedMap ℕ ℕ := ∅
  epoll : ℕ → Option ℕ := fun _ => none
  pending : List ServerTask := []
  held : List ℕ := []
  phase : ServerPhase := .idle
  fault : Bool := false

/-- What may happen. -/
inductive ServerInput
  | poll (active : List (Option (ℕ × Revents)))
  | handleEvent
  | handle (closes : Bool) (taken : List ℕ)
  | accept (fd : ℕ)
  | doPending
  | runTask (taken : Option ℕ)
  | lockOwner (c : ℕ)
  | flushQueued (taken : Option ℕ) (failed : Bool)
  | dropFrames
  | call (c : ℕ) (i : ConnInput)
  | post (c : ℕ) (data : Bytes)
  | hold (c : ℕ)
  | release (c : ℕ)

/-- A step of what `flushAll` calls. -/
def ServerInput.isFlush : ServerInput → Bool
  | .flushQueued _ _ | .dropFrames => true
  | _ => false

/-- The member functions of a connection that are called from outside. -/
def ConnInput.isCall : ConnInput → Bool
  | .send _ _ | .queueFrame _ | .shutdown | .forceClose => true
  | _ => false

/-- `flushQueued`, whose `writev` may fail. -/
def TcpConnection.flush (taken : Option ℕ) (failed : Bool) (t : TcpConnection) : TcpConnection :=
  if failed && !t.outQueue.isEmpty && t.state ≠ .disconnected then t.handleClose
  else t.flushQueued taken

/-- `flushQueued` looks at the frames of a closed connection, and then drops them. -/
def TcpConnection.drops (t : TcpConnection) : Bool :=
  t.state = .disconnected && !t.outQueue.isEmpty

namespace TcpServer

/-! ## The code -/

def put (s : TcpServer) (c : ℕ) (x : ServerConn) : TcpServer :=
  { s with heap := Function.update s.heap c (some x) }

/-- `Epoll::updateChannel`: a descriptor that is there already cannot be added, any other can. -/
def updateChannel (s : TcpServer) (c : ℕ) : TcpServer :=
  match s.heap c with
  | none => { s with fault := true }
  | some x =>
    if x.inEpoll then s
    else if (s.epoll x.fd).isSome then s
    else { s.put c { x with inEpoll := true } with epoll := Function.update s.epoll x.fd (some c) }

/-- `Epoll::removeChannel`. -/
def removeChannel (s : TcpServer) (c : ℕ) : TcpServer :=
  match s.heap c with
  | none => { s with fault := true }
  | some x =>
    if x.inEpoll then
      { s.put c { x with inEpoll := false } with epoll := Function.update s.epoll x.fd none }
    else s

/-- `TcpServer::removeConnection`, which is the `closeCb` of a connection. -/
def removeConnection (s : TcpServer) (c : ℕ) : TcpServer :=
  { s with
    heap := Function.update s.heap c ((s.heap c).map fun x => { x with closes := x.closes + 1 })
    pending := s.pending ++ [.removeConnection c] }

/-- What `TcpConnection::handleClose` does outside the connection. -/
def handleClose (s : TcpServer) (c : ℕ) : TcpServer :=
  ((s.updateChannel c).removeChannel c).removeConnection c

/-- A member function of a connection. -/
def act (s : TcpServer) (c : ℕ) (f : TcpConnection → TcpConnection) : TcpServer :=
  match s.heap c with
  | none => { s with fault := true }
  | some x =>
    let s := s.put c { x with conn := f x.conn }
    let s := if (f x.conn).writing = x.conn.writing then s else s.updateChannel c
    if x.conn.state ≠ .disconnected ∧ (f x.conn).state = .disconnected then s.handleClose c else s

/-- `TcpServer::newConnection`, with the task that it runs in the loop. -/
def newConnection (s : TcpServer) (fd : ℕ) : TcpServer :=
  let made := { s.put s.count { fd := fd } with
    count := s.count + 1
    conns := if (s.conns.lookup fd).isSome then s.conns else s.conns.insert fd s.count }
  made.updateChannel s.count

/-- A task of the queue. -/
def runTask (s : TcpServer) (taken : Option ℕ) : ServerTask → TcpServer
  | .removeConnection c =>
    match s.heap c with
    | none => { s with fault := true }
    | some x =>
      if s.conns.lookup x.fd = some c then { s with conns := s.conns.erase x.fd } else s
  | .sendInLoop c data => s.act c fun t =>
    if t.state = .disconnected then t else t.sendBufferInLoop data taken

/-- The tasks that have not been run. -/
def tasks (s : TcpServer) : List ServerTask :=
  match s.phase with
  | .pending left _ => left ++ s.pending
  | _ => s.pending

/-- The owner that `handleEvent` is, and those that `doPending` has. `flushAll` is none: the
`shared_ptr` that it tests is a temporary of the condition. -/
def phaseOwners : ServerPhase → List ℕ
  | .idle | .flushing _ | .dropping _ => []
  | .dispatching _ current => (current.map Prod.fst).toList
  | .pending left ran => (left ++ ran).map ServerTask.conn

/-- The owners of connections. -/
def owners (s : TcpServer) : List ℕ :=
  s.conns.entries.map (·.2) ++ s.pending.map ServerTask.conn ++ s.held ++ phaseOwners s.phase

/-- The connection of a descriptor that is going to be closed. -/
def closing (s : TcpServer) (fd : ℕ) : Bool :=
  (List.range s.count).any fun c => !s.owners.contains c && (s.heap c).any fun x => x.fd = fd

/-- A connection without owners is destroyed, and the kernel forgets its descriptor. -/
def collect (s : TcpServer) : TcpServer :=
  { s with
    heap := fun c => if c ∈ s.owners then s.heap c else none
    epoll := fun fd => if s.closing fd then none else s.epoll fd }

/-- A descriptor that the kernel may give away. -/
def isFree (s : TcpServer) (fd : ℕ) : Bool :=
  (List.range s.count).all fun c => !(s.heap c).any fun x => x.fd = fd

/-- A channel that epoll may report. -/
def registered (s : TcpServer) : Option (ℕ × Revents) → Bool
  | none => true
  | some (c, _) => (s.heap c).any fun x => s.epoll x.fd = some c

/-- Whether somebody outside the server has the connection. -/
def holds (s : TcpServer) (c : ℕ) : Bool :=
  s.held.contains c ||
    match s.phase with
    | .dispatching _ (some (c', _)) => c' = c
    | _ => false

/-- The connection is there and connected. -/
def connected (s : TcpServer) (c : ℕ) : Bool :=
  (s.heap c).any fun x => x.conn.state = .connected

/-- What happens, before connections are destroyed. -/
def move (s : TcpServer) : ServerInput → Option TcpServer
  | .poll active =>
    match s.phase with
    | .idle =>
      if active.all s.registered then some { s with phase := .dispatching active none } else none
    | _ => none
  | .handleEvent =>
    match s.phase with
    | .dispatching (none :: active) none => some { s with phase := .dispatching active none }
    | .dispatching (some (c, r) :: active) none =>
      match s.heap c with
      | none => some { s with fault := true }
      | some _ => some { s with phase := .dispatching active (some (c, r.handlers)) }
    | _ => none
  | .handle closes taken =>
    match s.phase with
    | .dispatching active (some (_, [])) => some { s with phase := .dispatching active none }
    | .dispatching active (some (c, h :: hs)) =>
      some (act { s with phase := .dispatching active (some (c, hs)) } c (h.run closes taken))
    | _ => none
  | .accept fd =>
    match s.phase with
    | .dispatching _ none => if s.isFree fd then some (s.newConnection fd) else none
    | _ => none
  | .doPending =>
    match s.phase with
    | .dispatching [] none => some { s with phase := .pending s.pending [], pending := [] }
    | _ => none
  | .runTask taken =>
    match s.phase with
    | .pending (task :: left) ran =>
      some (runTask { s with phase := .pending left (ran ++ [task]) } taken task)
    | .pending [] _ => some { s with phase := .idle }
    | _ => none
  | .lockOwner c =>
    -- `if (e.owner.lock())`; the entry of a connection that is gone is dropped
    match s.phase, s.heap c with
    | .idle, some _ => some { s with phase := .flushing c }
    | _, _ => none
  | .flushQueued taken failed =>
    -- `e.fn()`; one that is open has an owner in the table, which stays there meanwhile
    match s.phase with
    | .flushing c =>
      if (s.heap c).any fun x => x.conn.drops then some { s with phase := .dropping c }
      else some (act { s with phase := .idle } c (TcpConnection.flush taken failed))
    | _ => none
  | .dropFrames =>
    match s.phase with
    | .dropping c => some (act { s with phase := .idle } c (TcpConnection.flush none false))
    | _ => none
  | .call c i =>
    -- the loop thread is in `flushAll` otherwise
    if s.phase.flushed = none ∧ s.holds c = true ∧ i.isCall = true then
      some (s.act c fun t => (t.step i).getD t)
    else none
  | .post c data =>
    if s.holds c && s.connected c then
      some { s with pending := s.pending ++ [.sendInLoop c data] }
    else none
  | .hold c => if c ∈ s.owners then some { s with held := s.held ++ [c] } else none
  | .release c => if c ∈ s.held then some { s with held := s.held.erase c } else none

/-- A server that listens, without connections. -/
def machine : TransitionSystem TcpServer ServerInput where
  init s := s = {}
  step s i := (s.move i).map collect

/-! ## Flushes of connections that are given up -/

/-- A thread gives up the last owner of the connection that `flushAll` is about to use. -/
def givesUp (s : TcpServer) : ServerInput → Bool
  | .release c =>
    s.phase.flushed = some c && !(owners { s with held := s.held.erase c }).contains c
  | _ => false

/-- The connection that is about to be used has been given up since `flushAll` tested or used it;
newest step first. -/
def givenUp : List (TransitionSystem.Step TcpServer ServerInput) → Bool
  | [] => false
  | t :: h => t.pre.givesUp t.input || !t.input.isFlush && givenUp h

/-- A flush began, or went on, with a connection that had been given up. -/
def flushedLate : List (TransitionSystem.Step TcpServer ServerInput) → Bool
  | [] => false
  | t :: h => t.input.isFlush && givenUp h || flushedLate h

end TcpServer

end Perfacet
