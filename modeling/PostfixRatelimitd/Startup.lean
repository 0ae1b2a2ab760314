import PostfixRatelimitd.FileSystem
import PostfixRatelimitd.Transition

/-!
# Starting up

An instance locks a file for each of its sockets, connects to redis, and binds its sockets, each
in place of what a dead instance may have left there. Any number of instances start up, run and
are killed on one host, and each system call is a step of its own.
-/
namespace PostfixRatelimitd

/-- Owner and group get read-write access. -/
def socketMode : UInt32 := 0o660

/-- Owner-only. -/
def controlSocketMode : UInt32 := 0o600

/-- Leaves a socket that is created owner-only. -/
def socketCreateUmask : UInt32 := 0o177

def lockFileSuffix : String := ".lock"

def lockPath (socket : String) : String := socket ++ lockFileSuffix

inductive SocketRole
  | policy
  | control
  deriving DecidableEq, Repr

def SocketRole.mode : SocketRole → UInt32
  | policy => socketMode
  | control => controlSocketMode

/-- The next system call of an instance. -/
inductive StartupStep
  | openLock (role : SocketRole)
  | tryLock (role : SocketRole) (file : ℕ)
  | connectRedis
  /-- whether somebody listens on the socket -/
  | connect (role : SocketRole)
  | removeFile (role : SocketRole)
  | narrowUmask (role : SocketRole)
  | bind (role : SocketRole) (previousUmask : UInt32)
  | listen (role : SocketRole) (previousUmask : UInt32) (file : ℕ)
  | restoreUmask (role : SocketRole) (previousUmask : UInt32) (bound : Bool)
  | setPermissions (role : SocketRole)
  | serving
  | exited
  deriving DecidableEq, Repr

structure Instance where
  socket : String
  controlSocket : Option String
  step : StartupStep
  umask : UInt32
  /-- the umask it was started with -/
  ambientUmask : UInt32

namespace Instance

def path (i : Instance) : SocketRole → Option String
  | .policy => some i.socket
  | .control => i.controlSocket

/-- What follows once the lock for a socket is held. -/
def afterLock (i : Instance) : SocketRole → StartupStep
  | .policy => if i.controlSocket.isSome then .openLock .control else .connectRedis
  | .control => .connectRedis

/-- What follows once a socket is bound. -/
def afterBind (i : Instance) : SocketRole → StartupStep
  | .policy => if i.controlSocket.isSome then .connect .control else .serving
  | .control => .serving

end Instance

structure Host where
  fs : FileSystem (ℕ × SocketRole)
  instances : List Instance

namespace Host

/-- Nothing runs, and no lock is held. -/
def start (fs : FileSystem (ℕ × SocketRole)) : Host := ⟨fs, []⟩

/-- The environment decides who starts, whose turn it is, which calls fail for reasons of their
own, and who is killed. -/
inductive Action
  | spawn (socket : String) (controlSocket : Option String) (umask : UInt32)
  | step (p : ℕ) (failed : Bool)
  /-- an instance ends, by itself or not -/
  | kill (p : ℕ)

def running (s : Host) (p : ℕ) : Bool := s.instances[p]?.any (fun i => i.step ≠ .exited)

/-- Who accepts a connection to this name. -/
def accepts (s : Host) (path : String) : Option (ℕ × SocketRole) :=
  match s.fs.node? path with
  | some (.socket (some key) true _) => if s.running key.1 then some key else none
  | _ => none

/-- An instance goes on. -/
def advance (s : Host) (p : ℕ) (i : Instance) (fs : FileSystem (ℕ × SocketRole))
    (step : StartupStep) : Host :=
  ⟨fs, s.instances.set p { i with step := step }⟩

/-- An instance is gone, and with it its locks. -/
def exit (s : Host) (p : ℕ) (i : Instance) : Host :=
  ⟨s.fs.release (fun key => key.1 == p), s.instances.set p { i with step := .exited }⟩

/-- An instance goes on if its call succeeds, and ends otherwise. -/
def proceed (s : Host) (p : ℕ) (i : Instance) (result : Option (FileSystem (ℕ × SocketRole)))
    (step : StartupStep) : Host :=
  match result with
  | some fs => s.advance p i fs step
  | none => s.exit p i

/-- The result of a call, unless it fails for a reason of its own. -/
def attempt {α : Type} (failed : Bool) (result : Option α) : Option α :=
  if failed then none else result

def openLockNext (s : Host) (p : ℕ) (i : Instance) (role : SocketRole) (path : String)
    (failed : Bool) : Host :=
  match attempt failed (s.fs.openCreate (lockPath path)) with
  | some (file, fs) => s.advance p i fs (.tryLock role file)
  | none => s.exit p i

/-- No permission to connect is taken for a live socket. -/
def connectNext (s : Host) (p : ℕ) (i : Instance) (role : SocketRole) (path : String)
    (failed : Bool) : Host :=
  if failed ∨ (s.accepts path).isSome then s.exit p i else s.advance p i s.fs (.removeFile role)

def bindNext (s : Host) (p : ℕ) (i : Instance) (role : SocketRole) (path : String)
    (previousUmask : UInt32) (failed : Bool) : Host :=
  match attempt failed (s.fs.bind path (p, role) (0o777 &&& ~~~i.umask)) with
  | some (file, fs) => s.advance p i fs (.listen role previousUmask file)
  | none => s.advance p i s.fs (.restoreUmask role previousUmask false)

def listenNext (s : Host) (p : ℕ) (i : Instance) (role : SocketRole) (previousUmask : UInt32)
    (file : ℕ) (failed : Bool) : Host :=
  match attempt failed (s.fs.listen file) with
  | some fs => s.advance p i fs (.restoreUmask role previousUmask true)
  | none => s.advance p i s.fs (.restoreUmask role previousUmask false)

def instanceNext (s : Host) (p : ℕ) (i : Instance) (failed : Bool) : Option Host :=
  match i.step with
  | .openLock role => (i.path role).map (fun path => s.openLockNext p i role path failed)
  | .tryLock role file =>
    some (s.proceed p i (attempt failed (s.fs.tryLock file (p, role))) (i.afterLock role))
  | .connectRedis => some (s.proceed p i (attempt failed (some s.fs)) (.connect .policy))
  | .connect role => (i.path role).map (fun path => s.connectNext p i role path failed)
  | .removeFile role => (i.path role).map (fun path =>
      s.proceed p i (attempt failed (some (s.fs.unlink path))) (.narrowUmask role))
  | .narrowUmask role =>
    some (s.advance p { i with umask := socketCreateUmask } s.fs (.bind role i.umask))
  | .bind role previousUmask =>
    (i.path role).map (fun path => s.bindNext p i role path previousUmask failed)
  | .listen role previousUmask file =>
    (i.path role).map (fun _ => s.listenNext p i role previousUmask file failed)
  | .restoreUmask role previousUmask bound =>
    some (if bound then s.advance p { i with umask := previousUmask } s.fs (.setPermissions role)
      else s.exit p { i with umask := previousUmask })
  | .setPermissions role => (i.path role).map (fun path =>
      s.proceed p i (attempt failed (s.fs.chmod path role.mode)) (i.afterBind role))
  | .serving | .exited => none

def next (s : Host) : Action → Option Host
  | .spawn socket controlSocket umask => some { s with
      instances := s.instances ++ [⟨socket, controlSocket, .openLock .policy, umask, umask⟩] }
  | .step p failed => s.instances[p]?.bind (fun i => s.instanceNext p i failed)
  | .kill p => (s.instances[p]?.filter (fun i => i.step ≠ .exited)).map (fun i => s.exit p i)

end Host
end PostfixRatelimitd
