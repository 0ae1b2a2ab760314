import PostfixRatelimitd.Startup
import PostfixRatelimitd.TaskPool

/-!
# Instances keep out of each other's way

An instance holds the lock for a socket from before it looks at the socket until it is gone, so
no other instance touches what it bound, however the instances and their deaths interleave. A
socket never has a wider mode than the one it is meant to have.
-/
namespace PostfixRatelimitd
open FileSystem

/-! ## What an instance owns -/

namespace StartupStep

/-- The lock for the socket of this role is held. -/
def holds : StartupStep → SocketRole → Bool
  | openLock r, role | tryLock r _, role => r == .control && role == .policy
  | exited, _ => false
  | _, _ => true

/-- The socket of this role is bound and listened on. -/
def bound : StartupStep → SocketRole → Bool
  | connect r, role | removeFile r, role | narrowUmask r, role | bind r _, role
  | listen r _ _, role => r == .control && role == .policy
  | restoreUmask r _ done, role => (r == role && done) || (r == .control && role == .policy)
  | setPermissions r, role => r == role || (r == .control && role == .policy)
  | serving, _ => true
  | openLock _, _ | tryLock _ _, _ | connectRedis, _ | exited, _ => false

/-- The socket of this role has its permissions. -/
def permitted : StartupStep → SocketRole → Bool
  | connect r, role | removeFile r, role | narrowUmask r, role | bind r _, role
  | listen r _ _, role | restoreUmask r _ _, role | setPermissions r, role =>
    r == .control && role == .policy
  | serving, _ => true
  | openLock _, _ | tryLock _ _, _ | connectRedis, _ | exited, _ => false

theorem bound_of_permitted {step : StartupStep} {role : SocketRole} (h : step.permitted role) :
    step.bound role := by
  cases step with
  | restoreUmask | setPermissions =>
    simp only [permitted] at h
    simp [bound, h]
  | _ => exact h

theorem holds_of_bound {step : StartupStep} {role : SocketRole} (h : step.bound role) :
    step.holds role := by
  cases step with
  | openLock | tryLock | connectRedis | exited => cases h
  | _ => rfl

/-- Where the umask stands. -/
def Umasked (ambientUmask umask : UInt32) : StartupStep → Prop
  | bind _ previousUmask | listen _ previousUmask _ | restoreUmask _ previousUmask _ =>
    previousUmask = ambientUmask ∧ umask = socketCreateUmask
  | exited => True
  | openLock _ | tryLock _ _ | connectRedis | connect _ | removeFile _ | narrowUmask _
  | setPermissions _ | serving => umask = ambientUmask

end StartupStep

/-- What an instance relies on. -/
structure Standing (fs : FileSystem (ℕ × SocketRole)) (p : ℕ) (i : Instance) : Prop where
  locked : ∀ role path, i.path role = some path → i.step.holds role →
    ∃ n, fs.At (lockPath path) n (.regular (some (p, role)))
  opened : ∀ role file path, i.step = .tryLock role file → i.path role = some path →
    ∃ holder, fs.At (lockPath path) file (.regular holder)
  bound : ∀ role path, i.path role = some path → i.step.bound role →
    ∃ n mode, fs.At path n (.socket (some (p, role)) true mode) ∧
      (i.step.permitted role → mode = role.mode)
  created : ∀ role previousUmask file path, i.step = .listen role previousUmask file →
    i.path role = some path → ∃ mode, fs.At path file (.socket (some (p, role)) false mode)
  umask : i.step.Umasked i.ambientUmask i.umask

/-- A socket is at most as accessible as it is meant to be. -/
def SafeMode : Node (ℕ × SocketRole) → Prop
  | .socket (some key) _ mode => mode &&& ~~~key.2.mode = 0
  | _ => True

theorem created_mode (role : SocketRole) :
    (0o777 &&& ~~~socketCreateUmask) &&& ~~~role.mode = 0 := by
  cases role <;> rfl

theorem target_mode (role : SocketRole) : role.mode &&& ~~~role.mode = 0 := by
  cases role <;> rfl

theorem safeMode_release {node : Node (ℕ × SocketRole)} (h : SafeMode node)
    (dead : ℕ × SocketRole → Bool) : SafeMode (Node.release dead node) := by
  cases node with
  | regular holder => trivial
  | socket owner listening mode => exact h

namespace Host

/-- No instance's socket has the name of a lock file. -/
def Apart (s : Host) : Prop :=
  ∀ i ∈ s.instances, ∀ j ∈ s.instances, ∀ role role' path path', i.path role = some path →
    j.path role' = some path' → path ≠ lockPath path'

structure Exclusive (s : Host) : Prop where
  standing : ∀ p i, s.instances[p]? = some i → Standing s.fs p i
  apart : s.Apart
  modes : ∀ node ∈ s.fs.nodes, SafeMode node

end Host

variable {fs fs' : FileSystem (ℕ × SocketRole)} {p q : ℕ} {i j : Instance}
  {gone : String → Prop} {released changed : ℕ × SocketRole → Prop}

/-- What a call of another instance leaves alone is still relied on. -/
theorem Standing.other (h : Standing fs q j) (hkeeps : Keeps gone released changed fs fs')
    (hlock : ∀ role path, j.path role = some path → ¬gone (lockPath path))
    (hsocket : ∀ role path, j.path role = some path → j.step.holds role → ¬gone path)
    (hreleased : ∀ role, ¬released (q, role)) (hchanged : ∀ role, ¬changed (q, role)) :
    Standing fs' q j where
  locked role path hpath hholds := by
    obtain ⟨n, hat⟩ := h.locked role path hpath hholds
    exact ⟨n, hkeeps.locked (hlock role path hpath) (hreleased role) hat⟩
  opened role file path hstep hpath := by
    obtain ⟨holder, hat⟩ := h.opened role file path hstep hpath
    obtain ⟨holder', hat', _⟩ := hkeeps.regular (hlock role path hpath) hat
    exact ⟨holder', hat'⟩
  bound role path hpath hbound := by
    obtain ⟨n, mode, hat, hmode⟩ := h.bound role path hpath hbound
    exact ⟨n, mode, hkeeps.socket
      (hsocket role path hpath (StartupStep.holds_of_bound hbound)) (hchanged role) hat, hmode⟩
  created role previousUmask file path hstep hpath := by
    obtain ⟨mode, hat⟩ := h.created role previousUmask file path hstep hpath
    exact ⟨mode, hkeeps.socket (hsocket role path hpath (hstep ▸ rfl)) (hchanged role) hat⟩
  umask := h.umask

/-- An instance that goes on relies on what it relied on before and on what its call gave it. -/
theorem Standing.own (h : Standing fs p i) (hkeeps : Keeps gone (fun _ => False) changed fs fs')
    {step : StartupStep} {umask : UInt32}
    (hlock : ∀ role path, i.path role = some path → ¬gone (lockPath path))
    (hlocked : ∀ role path, i.path role = some path → step.holds role → i.step.holds role ∨
      ∃ n, fs'.At (lockPath path) n (.regular (some (p, role))))
    (hopened : ∀ role file path, step = .tryLock role file → i.path role = some path →
      ∃ holder, fs'.At (lockPath path) file (.regular holder))
    (hbound : ∀ role path, i.path role = some path → step.bound role →
      (i.step.bound role ∧ (step.permitted role → i.step.permitted role)) ∧
          ¬gone path ∧ ¬changed (p, role) ∨
        ∃ n mode, fs'.At path n (.socket (some (p, role)) true mode) ∧
          (step.permitted role → mode = role.mode))
    (hcreated : ∀ role previousUmask file path, step = .listen role previousUmask file →
      i.path role = some path → ∃ mode, fs'.At path file (.socket (some (p, role)) false mode))
    (humask : step.Umasked i.ambientUmask umask) :
    Standing fs' p { i with step := step, umask := umask } where
  locked role path hpath hholds := by
    rcases hlocked role path hpath hholds with hbefore | hnew
    · obtain ⟨n, hat⟩ := h.locked role path hpath hbefore
      exact ⟨n, hkeeps.locked (hlock role path hpath) not_false hat⟩
    · exact hnew
  opened := hopened
  bound role path hpath hstep := by
    rcases hbound role path hpath hstep with ⟨⟨hbefore, hpermitted⟩, hkept, hsame⟩ | hnew
    · obtain ⟨n, mode, hat, hmode⟩ := h.bound role path hpath hbefore
      exact ⟨n, mode, hkeeps.socket hkept hsame hat, fun hnow => hmode (hpermitted hnow)⟩
    · exact hnew
  created := hcreated
  umask := humask

/-- An instance that was just started relies on nothing yet. -/
theorem Standing.started (fs : FileSystem (ℕ × SocketRole)) (p : ℕ) (socket : String)
    (controlSocket : Option String) (umask : UInt32) :
    Standing fs p ⟨socket, controlSocket, .openLock .policy, umask, umask⟩ where
  locked _ _ _ h := by cases h
  opened _ _ _ h := by cases h
  bound _ _ _ h := by cases h
  created _ _ _ _ h := by cases h
  umask := rfl

/-- An instance that is gone relies on nothing. -/
theorem Standing.exited (fs : FileSystem (ℕ × SocketRole)) (p : ℕ) (i : Instance) :
    Standing fs p { i with step := .exited } where
  locked _ _ _ h := by cases h
  opened _ _ _ h := by cases h
  bound _ _ _ h := by cases h
  created _ _ _ _ h := by cases h
  umask := trivial

/-- Between its locks an instance holds the first, and past them all it has use for. -/
theorem Instance.holds_afterLock {role role' : SocketRole} {file : ℕ} {path : String}
    (hne : role' ≠ role) (hpath : i.path role' = some path)
    (hholds : (i.afterLock role).holds role') : (StartupStep.tryLock role file).holds role' := by
  cases role with
  | policy =>
    cases role' with
    | policy => exact absurd rfl hne
    | control =>
      have hcontrol : i.controlSocket = some path := hpath
      simp [Instance.afterLock, hcontrol, StartupStep.holds] at hholds
  | control =>
    cases role' with
    | policy => rfl
    | control => exact absurd rfl hne

theorem Instance.afterLock_cases (i : Instance) (role : SocketRole) :
    i.afterLock role = .openLock .control ∨ i.afterLock role = .connectRedis := by
  cases role with
  | policy =>
    unfold Instance.afterLock
    split_ifs
    · exact .inl rfl
    · exact .inr rfl
  | control => exact .inr rfl

/-- What an instance has bound before it goes on. -/
theorem Instance.bound_afterBind {role role' : SocketRole} {path : String} (hne : role' ≠ role)
    (hpath : i.path role' = some path) (hbound : (i.afterBind role).bound role') :
    (StartupStep.setPermissions role).bound role' ∧
      ((i.afterBind role).permitted role' → (StartupStep.setPermissions role).permitted role') := by
  cases role with
  | policy =>
    cases role' with
    | policy => exact absurd rfl hne
    | control =>
      have hcontrol : i.controlSocket = some path := hpath
      simp [Instance.afterBind, hcontrol, StartupStep.bound] at hbound
  | control =>
    cases role' with
    | policy => exact ⟨rfl, fun _ => rfl⟩
    | control => exact absurd rfl hne

theorem Instance.afterBind_cases (i : Instance) (role : SocketRole) :
    i.afterBind role = .connect .control ∨ i.afterBind role = .serving := by
  cases role with
  | policy =>
    unfold Instance.afterBind
    split_ifs
    · exact .inl rfl
    · exact .inr rfl
  | control => exact .inr rfl

/-! ## One step -/

/-- A step of one instance: what becomes of it, and what the step leaves of everything else. -/
structure Stepped (s s' : Host) (p : ℕ) (i i' : Instance) : Prop where
  instances : s'.instances = s.instances.set p i'
  path : i'.path = i.path
  keeps : ∃ gone released changed, Keeps gone released changed s.fs s'.fs ∧
    (∀ path, gone path → ∃ role, i.path role = some path ∧ i.step.holds role) ∧
    (∀ key, released key → key.1 = p) ∧ ∀ key, changed key → key.1 = p
  standing : Standing s'.fs p i'
  modes : ∀ node ∈ s'.fs.nodes, SafeMode node

namespace Host
variable {s s' : Host}

theorem Exclusive.gone_lock (h : s.Exclusive) (hi : s.instances[p]? = some i)
    (hj : s.instances[q]? = some j)
    (hgone : ∀ path, gone path → ∃ role, i.path role = some path ∧ i.step.holds role)
    (role : SocketRole) (path : String) (hpath : j.path role = some path) :
    ¬gone (lockPath path) := by
  intro hlost
  obtain ⟨role', hmine, _⟩ := hgone _ hlost
  exact h.apart i (List.mem_of_getElem? hi) j
    (List.mem_of_getElem? hj) role' role _ path hmine hpath rfl

/-- Two locks for one name are one lock. -/
theorem Exclusive.same_lock (h : s.Exclusive) (hi : s.instances[p]? = some i)
    (hj : s.instances[q]? = some j) {role role' : SocketRole} {path : String}
    (hpath : i.path role = some path) (hpath' : j.path role' = some path)
    (hholds : i.step.holds role) (hholds' : j.step.holds role') : p = q ∧ role = role' := by
  obtain ⟨n, hat⟩ := (h.standing p i hi).locked role path hpath hholds
  obtain ⟨n', hat'⟩ := (h.standing q j hj).locked role' path hpath' hholds'
  obtain ⟨_, hnode⟩ := hat.unique hat'
  simpa using hnode

theorem Exclusive.of_stepped (h : s.Exclusive) (hi : s.instances[p]? = some i) {i' : Instance}
    (hstepped : Stepped s s' p i i') : s'.Exclusive := by
  obtain ⟨hinstances, hsame, ⟨gone, released, changed, hkeeps, hgone, hreleased, hchanged⟩,
    hstanding, hmodes⟩ := hstepped
  refine ⟨?_, ?_, hmodes⟩
  · intro q j hj
    rw [hinstances] at hj
    by_cases hq : q = p
    · subst hq
      rw [List.getElem?_set_self (List.getElem?_eq_some_iff.mp hi).1] at hj
      exact Option.some.inj hj ▸ hstanding
    · rw [List.getElem?_set_ne (Ne.symm hq)] at hj
      refine (h.standing q j hj).other hkeeps (h.gone_lock hi hj hgone) ?_
        (fun role hmine => hq (hreleased _ hmine)) (fun role hmine => hq (hchanged _ hmine))
      intro role path hpath hholds hlost
      obtain ⟨role', hmine, hholds'⟩ := hgone path hlost
      exact hq (h.same_lock hj hi hpath hmine hholds hholds').1
  · unfold Apart
    rw [hinstances]
    have hpaths : ∀ j ∈ s.instances.set p i', ∃ j' ∈ s.instances, j.path = j'.path :=
      TaskPool.forall_set (fun j hj => ⟨j, hj, rfl⟩) p ⟨i, List.mem_of_getElem? hi, hsame⟩
    intro j hj k hk role role' path path' hpath hpath'
    obtain ⟨j', hj', hjpath⟩ := hpaths j hj
    obtain ⟨k', hk', hkpath⟩ := hpaths k hk
    rw [hjpath] at hpath
    rw [hkpath] at hpath'
    exact h.apart j' hj' k' hk' role role' path path' hpath hpath'

theorem Exclusive.exit_stepped (h : s.Exclusive) (p : ℕ) (i : Instance) (umask : UInt32) :
    Stepped s (s.exit p { i with umask := umask }) p i
      { i with umask := umask, step := .exited } where
  instances := rfl
  path := rfl
  keeps := ⟨fun _ => False, fun key => key.1 == p, fun _ => False, keeps_release,
    fun _ h => h.elim, fun _ h => by simpa using h, fun _ h => h.elim⟩
  standing := .exited _ p { i with umask := umask }
  modes := by
    intro node hnode
    obtain ⟨node', hnode', rfl⟩ := List.mem_map.mp hnode
    exact safeMode_release (h.modes node' hnode') _

/-- An instance goes on after a call that leaves everything else alone. -/
theorem Exclusive.advance_stepped (h : s.Exclusive) (hi : s.instances[p]? = some i)
    {fs : FileSystem (ℕ × SocketRole)} {step : StartupStep} (changed : ℕ × SocketRole → Prop)
    (umask : UInt32) (hkeeps : Keeps (fun _ => False) (fun _ => False) changed s.fs fs)
    (hchanged : ∀ key, changed key → key.1 = p)
    (hlocked : ∀ role path, i.path role = some path → step.holds role → i.step.holds role ∨
      ∃ n, fs.At (lockPath path) n (.regular (some (p, role))))
    (hopened : ∀ role file path, step = .tryLock role file → i.path role = some path →
      ∃ holder, fs.At (lockPath path) file (.regular holder))
    (hbound : ∀ role path, i.path role = some path → step.bound role →
      (i.step.bound role ∧ (step.permitted role → i.step.permitted role)) ∧ ¬changed (p, role) ∨
        ∃ n mode, fs.At path n (.socket (some (p, role)) true mode) ∧
          (step.permitted role → mode = role.mode))
    (hcreated : ∀ role previousUmask file path, step = .listen role previousUmask file →
      i.path role = some path → ∃ mode, fs.At path file (.socket (some (p, role)) false mode))
    (humask : step.Umasked i.ambientUmask umask) (hmodes : ∀ node ∈ fs.nodes, SafeMode node) :
    Stepped s (s.advance p { i with umask := umask } fs step) p i
      { i with umask := umask, step := step } where
  instances := rfl
  path := rfl
  keeps := ⟨_, _, changed, hkeeps, fun _ h => h.elim, fun _ h => h.elim, hchanged⟩
  standing := (h.standing p i hi).own hkeeps (fun _ _ _ => not_false) hlocked hopened
    (fun role path hpath hstep => (hbound role path hpath hstep).imp_left
      (fun hbefore => ⟨hbefore.1, not_false, hbefore.2⟩)) hcreated humask
  modes := hmodes

theorem attempt_eq_some {α : Type} {failed : Bool} {result : Option α} {x : α}
    (h : attempt failed result = some x) : result = some x := by
  unfold attempt at h
  split_ifs at h
  exact h

/-- What an instance held it holds. -/
theorem kept_locks {step : StartupStep} {fs : FileSystem (ℕ × SocketRole)}
    (h : ∀ role, step.holds role → i.step.holds role) (role : SocketRole) (path : String)
    (_ : i.path role = some path) (hholds : step.holds role) : i.step.holds role ∨
      ∃ n, fs.At (lockPath path) n (.regular (some (p, role))) :=
  .inl (h role hholds)

theorem openLockNext_stepped (h : s.Exclusive) (hi : s.instances[p]? = some i) {role : SocketRole}
    (hstep : i.step = .openLock role) {path : String} (hpath : i.path role = some path)
    (failed : Bool) : ∃ i', Stepped s (s.openLockNext p i role path failed) p i i' := by
  unfold openLockNext
  split
  · rename_i file fs hopen
    have hopened := attempt_eq_some hopen
    refine ⟨_, h.advance_stepped hi (fun _ => False) i.umask
      (keeps_openCreate hopened) (fun _ => False.elim) ?_ ?_ ?_ ?_ ?_ ?_⟩
    · exact kept_locks (by rw [hstep]; exact fun _ => id)
    · rintro role' file' path' ⟨⟩ hpath'
      obtain rfl := Option.some.inj (hpath.symm.trans hpath')
      exact openCreate_at hopened
    · intro _ _ _ hbound
      cases hbound
    · intro _ _ _ _ hcreated
      cases hcreated
    · have humask := (h.standing p i hi).umask
      rw [hstep] at humask
      exact humask
    · rcases openCreate_cases hopened with ⟨_, _, rfl⟩ | ⟨_, _, rfl⟩
      · exact TaskPool.forall_snoc h.modes trivial
      · exact h.modes
  · exact ⟨_, h.exit_stepped p i i.umask⟩

theorem tryLock_stepped (h : s.Exclusive) (hi : s.instances[p]? = some i) {role : SocketRole}
    {file : ℕ} (hstep : i.step = .tryLock role file) (failed : Bool) : ∃ i',
    Stepped s (s.proceed p i (attempt failed (s.fs.tryLock file (p, role))) (i.afterLock role)) p
      i i' := by
  unfold proceed
  split
  · rename_i fs hlock
    have hlocked := attempt_eq_some hlock
    refine ⟨_, h.advance_stepped hi (fun _ => False) i.umask
      (keeps_tryLock hlocked) (fun _ => False.elim) ?_ ?_ ?_ ?_ ?_ ?_⟩
    · intro role' path' hpath' hholds
      by_cases hrole : role' = role
      · subst hrole
        obtain ⟨holder, hat⟩ := (h.standing p i hi).opened role' file path' hstep hpath'
        exact .inr ⟨file, tryLock_at hlocked hat⟩
      · exact .inl (hstep ▸ Instance.holds_afterLock hrole hpath' hholds)
    · intro _ _ _ hopened
      rcases i.afterLock_cases role with hafter | hafter <;> simp [hafter] at hopened
    · intro _ _ _ hbound
      rcases i.afterLock_cases role with hafter | hafter <;>
        simp [hafter, StartupStep.bound] at hbound
    · intro _ _ _ _ hcreated
      rcases i.afterLock_cases role with hafter | hafter <;> simp [hafter] at hcreated
    · have humask := (h.standing p i hi).umask
      rw [hstep] at humask
      rcases i.afterLock_cases role with hafter | hafter <;> rw [hafter] <;> exact humask
    · obtain ⟨_, rfl⟩ := tryLock_eq_some hlocked
      exact TaskPool.forall_set h.modes file trivial
  · exact ⟨_, h.exit_stepped p i i.umask⟩

/-- A call that changes no file, after which an instance claims no more than before. -/
theorem Exclusive.quiet_stepped (h : s.Exclusive) (hi : s.instances[p]? = some i)
    {step : StartupStep} (umask : UInt32) (hholds : ∀ role, step.holds role → i.step.holds role)
    (hbound : ∀ role, step.bound role →
      i.step.bound role ∧ (step.permitted role → i.step.permitted role))
    (hopened : ∀ role file, step ≠ .tryLock role file)
    (hcreated : ∀ role previousUmask file, step ≠ .listen role previousUmask file)
    (humask : step.Umasked i.ambientUmask umask) :
    Stepped s (s.advance p { i with umask := umask } s.fs step) p i
      { i with umask := umask, step := step } :=
  h.advance_stepped hi (fun _ => False) umask (.refl _ _ _ _) (fun _ => False.elim)
    (kept_locks hholds) (fun role file _ hstep => absurd hstep (hopened role file))
    (fun role _ _ hstep => .inl ⟨hbound role hstep, not_false⟩)
    (fun role previousUmask file _ hstep => absurd hstep (hcreated role previousUmask file))
    humask h.modes

theorem connectNext_stepped (h : s.Exclusive) (hi : s.instances[p]? = some i) {role : SocketRole}
    (hstep : i.step = .connect role) (path : String) (failed : Bool) :
    ∃ i', Stepped s (s.connectNext p i role path failed) p i i' := by
  have humask := (h.standing p i hi).umask
  rw [hstep] at humask
  unfold connectNext
  split_ifs
  · exact ⟨_, h.exit_stepped p i i.umask⟩
  · exact ⟨_, h.quiet_stepped hi i.umask (by simp [hstep, StartupStep.holds])
      (by rw [hstep]; exact fun _ hbefore => ⟨hbefore, id⟩) (by simp) (by simp) humask⟩

theorem removeFile_stepped (h : s.Exclusive) (hi : s.instances[p]? = some i) {role : SocketRole}
    (hstep : i.step = .removeFile role) {path : String} (hpath : i.path role = some path)
    (failed : Bool) : ∃ i',
    Stepped s (s.proceed p i (attempt failed (some (s.fs.unlink path))) (.narrowUmask role)) p i
      i' := by
  have hholds : ∀ role', i.step.holds role' := by simp [hstep, StartupStep.holds]
  have hgone : ∀ path', path' = path → ∃ role, i.path role = some path' ∧ i.step.holds role := by
    rintro path' rfl
    exact ⟨role, hpath, hholds role⟩
  have hkeeps : Keeps (fun path' => path' = path) (fun _ => False) (fun _ => False) s.fs
      (s.fs.unlink path) := keeps_unlink rfl
  unfold proceed
  split
  · rename_i fs hunlink
    obtain rfl := Option.some.inj (attempt_eq_some hunlink)
    refine ⟨{ i with step := .narrowUmask role }, rfl, rfl,
      ⟨_, _, _, hkeeps, hgone, fun _ => False.elim, fun _ => False.elim⟩, ?_, h.modes⟩
    refine (h.standing p i hi).own hkeeps (h.gone_lock hi hi hgone) ?_ ?_ ?_ ?_ ?_
    · exact kept_locks (fun role' _ => hholds role')
    · intro _ _ _ hopened
      cases hopened
    · intro role' path' hpath' hbound
      refine .inl ⟨by rw [hstep]; exact ⟨hbound, id⟩, ?_, not_false⟩
      rintro rfl
      -- The socket bound before is another one, since its lock is.
      obtain ⟨_, rfl⟩ := h.same_lock hi hi hpath hpath' (hholds role) (hholds role')
      cases role <;> cases hbound
    · intro _ _ _ _ hcreated
      cases hcreated
    · have humask := (h.standing p i hi).umask
      rw [hstep] at humask
      exact humask
  · exact ⟨_, h.exit_stepped p i i.umask⟩

theorem bindNext_stepped (h : s.Exclusive) (hi : s.instances[p]? = some i) {role : SocketRole}
    {previousUmask : UInt32} (hstep : i.step = .bind role previousUmask) {path : String}
    (hpath : i.path role = some path) (failed : Bool) :
    ∃ i', Stepped s (s.bindNext p i role path previousUmask failed) p i i' := by
  have humask := (h.standing p i hi).umask
  rw [hstep] at humask
  unfold bindNext
  split
  · rename_i file fs hbind
    have hbound := attempt_eq_some hbind
    refine ⟨_, h.advance_stepped hi (fun _ => False) i.umask
      (keeps_bind hbound) (fun _ => False.elim) ?_ ?_ ?_ ?_ humask ?_⟩
    · exact kept_locks (by simp [hstep, StartupStep.holds])
    · intro _ _ _ hopened
      cases hopened
    · intro role' _ _ hbefore
      exact .inl ⟨by rw [hstep]; exact ⟨hbefore, id⟩, not_false⟩
    · rintro role' _ file' path' ⟨⟩ hpath'
      obtain rfl := Option.some.inj (hpath.symm.trans hpath')
      exact ⟨_, bind_at hbound⟩
    · obtain ⟨_, _, rfl⟩ := bind_eq_some hbound
      refine TaskPool.forall_snoc h.modes ?_
      rw [humask.2]
      exact created_mode role
  · exact ⟨_, h.quiet_stepped hi i.umask (by simp [hstep, StartupStep.holds])
      (by simp [hstep, StartupStep.bound, StartupStep.permitted]) (by simp) (by simp) humask⟩

theorem listenNext_stepped (h : s.Exclusive) (hi : s.instances[p]? = some i) {role : SocketRole}
    {previousUmask : UInt32} {file : ℕ} (hstep : i.step = .listen role previousUmask file)
    {path : String} (hpath : i.path role = some path) (failed : Bool) :
    ∃ i', Stepped s (s.listenNext p i role previousUmask file failed) p i i' := by
  have humask := (h.standing p i hi).umask
  rw [hstep] at humask
  obtain ⟨mode, hat⟩ := (h.standing p i hi).created role previousUmask file path hstep hpath
  unfold listenNext
  split
  · rename_i fs hlisten
    obtain rfl := Option.some.inj ((listen_eq hat).symm.trans (attempt_eq_some hlisten))
    refine ⟨_, h.advance_stepped hi (fun key => key = (p, role)) i.umask
      (keeps_set_socket hat.node (by rintro _ ⟨⟩; rfl)) (by rintro _ rfl; rfl) ?_ ?_ ?_ ?_
        humask ?_⟩
    · exact kept_locks (by simp [hstep, StartupStep.holds])
    · intro _ _ _ hopened
      cases hopened
    · intro role' path' hpath' hbound
      by_cases hrole : role' = role
      · subst hrole
        obtain rfl := Option.some.inj (hpath.symm.trans hpath')
        have hset := at_set (.socket (some (p, role')) true mode) hat.node hat
        rw [if_pos rfl] at hset
        exact .inr ⟨file, mode, hset, by cases role' <;> simp [StartupStep.permitted]⟩
      · refine .inl ⟨?_, fun hsame => hrole (Prod.ext_iff.mp hsame).2⟩
        rw [hstep]
        exact ⟨by simpa [StartupStep.bound, Ne.symm hrole] using hbound, id⟩
    · intro _ _ _ _ hcreated
      cases hcreated
    · have hmode : SafeMode (.socket (some (p, role)) false mode) :=
        h.modes _ (List.mem_of_getElem? hat.node)
      exact TaskPool.forall_set h.modes file hmode
  · exact ⟨_, h.quiet_stepped hi i.umask (by simp [hstep, StartupStep.holds])
      (by simp [hstep, StartupStep.bound, StartupStep.permitted]) (by simp) (by simp) humask⟩

theorem setPermissions_stepped (h : s.Exclusive) (hi : s.instances[p]? = some i)
    {role : SocketRole} (hstep : i.step = .setPermissions role) {path : String}
    (hpath : i.path role = some path) (failed : Bool) : ∃ i',
    Stepped s (s.proceed p i (attempt failed (s.fs.chmod path role.mode)) (i.afterBind role)) p i
      i' := by
  have humask := (h.standing p i hi).umask
  rw [hstep] at humask
  obtain ⟨n, mode, hat, _⟩ := (h.standing p i hi).bound role path hpath
    (by simp [hstep, StartupStep.bound])
  unfold proceed
  split
  · rename_i fs hchmod
    obtain rfl := Option.some.inj ((chmod_eq hat).symm.trans (attempt_eq_some hchmod))
    refine ⟨_, h.advance_stepped hi (fun key => key = (p, role)) i.umask
      (keeps_set_socket hat.node (by rintro _ ⟨⟩; rfl)) (by rintro _ rfl; rfl) ?_ ?_ ?_ ?_ ?_ ?_⟩
    · exact kept_locks (by simp [hstep, StartupStep.holds])
    · intro _ _ _ hopened
      rcases i.afterBind_cases role with hafter | hafter <;> simp [hafter] at hopened
    · intro role' path' hpath' hbound
      by_cases hrole : role' = role
      · subst hrole
        obtain rfl := Option.some.inj (hpath.symm.trans hpath')
        have hset := at_set (.socket (some (p, role')) true role'.mode) hat.node hat
        rw [if_pos rfl] at hset
        exact .inr ⟨n, role'.mode, hset, fun _ => rfl⟩
      · refine .inl ⟨?_, fun hsame => hrole (Prod.ext_iff.mp hsame).2⟩
        rw [hstep]
        exact Instance.bound_afterBind hrole hpath' hbound
    · intro _ _ _ _ hcreated
      rcases i.afterBind_cases role with hafter | hafter <;> simp [hafter] at hcreated
    · rcases i.afterBind_cases role with hafter | hafter <;> rw [hafter] <;> exact humask
    · exact TaskPool.forall_set h.modes n (target_mode role)
  · exact ⟨_, h.exit_stepped p i i.umask⟩

theorem instanceNext_stepped (h : s.Exclusive) (hi : s.instances[p]? = some i) {failed : Bool}
    (hnext : s.instanceNext p i failed = some s') : ∃ i', Stepped s s' p i i' := by
  have humask := (h.standing p i hi).umask
  unfold instanceNext at hnext
  cases hstep : i.step with
  | openLock role =>
    simp only [hstep] at hnext
    obtain ⟨path, hpath, rfl⟩ := Option.map_eq_some_iff.mp hnext
    exact openLockNext_stepped h hi hstep hpath failed
  | tryLock role file =>
    simp only [hstep, Option.some.injEq] at hnext
    exact hnext ▸ tryLock_stepped h hi hstep failed
  | connectRedis =>
    simp only [hstep, Option.some.injEq] at hnext
    subst hnext
    rw [hstep] at humask
    unfold proceed
    split
    · rename_i fs hconnect
      obtain rfl := Option.some.inj (attempt_eq_some hconnect)
      exact ⟨_, h.quiet_stepped hi i.umask (by simp [hstep, StartupStep.holds])
        (by simp [StartupStep.bound]) (by simp) (by simp) humask⟩
    · exact ⟨_, h.exit_stepped p i i.umask⟩
  | connect role =>
    simp only [hstep] at hnext
    obtain ⟨path, _, rfl⟩ := Option.map_eq_some_iff.mp hnext
    exact connectNext_stepped h hi hstep path failed
  | removeFile role =>
    simp only [hstep] at hnext
    obtain ⟨path, hpath, rfl⟩ := Option.map_eq_some_iff.mp hnext
    exact removeFile_stepped h hi hstep hpath failed
  | narrowUmask role =>
    simp only [hstep, Option.some.injEq] at hnext
    subst hnext
    rw [hstep] at humask
    exact ⟨_, h.quiet_stepped hi _ (by simp [hstep, StartupStep.holds])
      (by rw [hstep]; exact fun _ hbefore => ⟨hbefore, id⟩) (by simp) (by simp) ⟨humask, rfl⟩⟩
  | bind role previousUmask =>
    simp only [hstep] at hnext
    obtain ⟨path, hpath, rfl⟩ := Option.map_eq_some_iff.mp hnext
    exact bindNext_stepped h hi hstep hpath failed
  | listen role previousUmask file =>
    simp only [hstep] at hnext
    obtain ⟨path, hpath, rfl⟩ := Option.map_eq_some_iff.mp hnext
    exact listenNext_stepped h hi hstep hpath failed
  | restoreUmask role previousUmask bound =>
    simp only [hstep, Option.some.injEq] at hnext
    subst hnext
    rw [hstep] at humask
    split_ifs with hbound
    · subst hbound
      exact ⟨_, h.quiet_stepped hi _ (by simp [hstep, StartupStep.holds])
        (by simp [hstep, StartupStep.bound, StartupStep.permitted]) (by simp) (by simp) humask.1⟩
    · exact ⟨_, h.exit_stepped p i previousUmask⟩
  | setPermissions role =>
    simp only [hstep] at hnext
    obtain ⟨path, hpath, rfl⟩ := Option.map_eq_some_iff.mp hnext
    exact setPermissions_stepped h hi hstep hpath failed
  | serving | exited =>
    simp only [hstep] at hnext
    cases hnext

/-! ## Runs -/

/-- No instance is started whose sockets or lock files have the names of others' lock files or
sockets, or of each other. -/
def keepsApart (s : Host) : Action → Bool
  | .spawn socket controlSocket _ =>
    let paths := socket :: controlSocket.toList ++
      s.instances.flatMap (fun i => i.socket :: i.controlSocket.toList)
    paths.all (fun path => paths.all (fun path' => path != lockPath path'))
  | _ => true

theorem mem_paths {role : SocketRole} {path : String} (hpath : i.path role = some path) :
    path ∈ i.socket :: i.controlSocket.toList := by
  cases role with
  | policy => exact Option.some.inj hpath ▸ List.mem_cons_self
  | control =>
    have hcontrol : i.controlSocket = some path := hpath
    simp [hcontrol]

theorem Exclusive.spawn (h : s.Exclusive) {socket : String} {controlSocket : Option String}
    {umask : UInt32} (hok : s.keepsApart (.spawn socket controlSocket umask)) :
    Exclusive { s with
      instances := s.instances ++ [⟨socket, controlSocket, .openLock .policy, umask, umask⟩] } where
  standing q j hj := by
    rw [List.getElem?_append] at hj
    split_ifs at hj
    · exact h.standing q j hj
    · obtain rfl := List.mem_singleton.mp (List.mem_of_getElem? hj)
      exact .started _ _ _ _ _
  apart := by
    have hpaths := List.all_eq_true.mp hok
    intro j hj k hk role role' path path' hpath hpath'
    have hmem : ∀ j ∈ s.instances ++ [⟨socket, controlSocket, .openLock .policy, umask, umask⟩],
        ∀ role path, j.path role = some path → path ∈ socket :: controlSocket.toList ++
          s.instances.flatMap (fun i => i.socket :: i.controlSocket.toList) := by
      intro j hj role path hpath
      rcases List.mem_append.mp hj with hold | hnew
      · exact List.mem_append_right _ (List.mem_flatMap.mpr ⟨j, hold, mem_paths hpath⟩)
      · obtain rfl := List.mem_singleton.mp hnew
        exact List.mem_append_left _ (mem_paths hpath)
    have hne := List.all_eq_true.mp (hpaths path (hmem j hj role path hpath)) path'
      (hmem k hk role' path' hpath')
    simpa using hne
  modes := h.modes

theorem Exclusive.step {a : Action} (h : s.Exclusive) (hok : s.keepsApart a)
    (hnext : s.next a = some s') : s'.Exclusive := by
  cases a with
  | spawn socket controlSocket umask =>
    obtain rfl := Option.some.inj hnext
    exact h.spawn hok
  | step p failed =>
    obtain ⟨i, hi, hstep⟩ := Option.bind_eq_some_iff.mp hnext
    obtain ⟨i', hstepped⟩ := instanceNext_stepped h hi hstep
    exact h.of_stepped hi hstepped
  | kill p =>
    obtain ⟨i, hi, rfl⟩ := Option.map_eq_some_iff.mp hnext
    exact h.of_stepped (Option.filter_eq_some_iff.mp hi).1 (h.exit_stepped p i i.umask)

/-- What was there before the first instance belongs to none. -/
def Leftover : Node (ℕ × SocketRole) → Prop
  | .regular holder => holder = none
  | .socket owner _ _ => owner = none

theorem exclusive_reached {fs : FileSystem (ℕ × SocketRole)}
    (hfs : ∀ node ∈ fs.nodes, Leftover node)
    (h : Reachable next keepsApart (start fs) s) : s.Exclusive := by
  refine h.invariant ⟨by simp [start], ?_, ?_⟩ (fun _ _ _ hi hok hnext => hi.step hok hnext)
  · intro i hi
    cases hi
  · intro node hnode
    have hleft := hfs node hnode
    cases node with
    | regular holder => trivial
    | socket owner listening mode =>
      obtain rfl : owner = none := hleft
      trivial

theorem running_of_holds (hi : s.instances[p]? = some i) {role : SocketRole}
    (hholds : i.step.holds role) : s.running p := by
  unfold running
  rw [hi]
  cases hstep : i.step with
  | exited =>
    rw [hstep] at hholds
    cases hholds
  | _ => simp [hstep]

theorem accepts_of_bound (h : s.Exclusive) (hi : s.instances[p]? = some i) {role : SocketRole}
    {path : String} (hpath : i.path role = some path) (hbound : i.step.bound role) :
    s.accepts path = some (p, role) := by
  obtain ⟨n, mode, hat, _⟩ := (h.standing p i hi).bound role path hpath hbound
  unfold accepts
  rw [hat.node?_eq]
  exact if_pos (running_of_holds hi (StartupStep.holds_of_bound hbound))

/-- However instances start up, fail and are killed on one host, as long as their paths keep apart
from the lock files (`keepsApart`): two that hold the lock for one socket path are the same, by the
same socket; whoever connects to the path of a socket that an
instance has bound reaches that instance, as long as it runs; a socket never has a wider mode than
its role's, from the moment it is created, and has that mode in the end; and only while it binds has
an instance another umask than the one it was started with. -/
theorem instances_exclusive (fs : FileSystem (ℕ × SocketRole))
    (hfs : ∀ node ∈ fs.nodes, Leftover node) (s : Host)
    (h : Reachable next keepsApart (start fs) s) :
    (∀ (p q : ℕ) (i j : Instance) (role role' : SocketRole) (path : String),
      s.instances[p]? = some i → s.instances[q]? = some j → i.path role = some path →
        j.path role' = some path → i.step.holds role → j.step.holds role' → p = q ∧ role = role') ∧
    (∀ (p : ℕ) (i : Instance) (role : SocketRole) (path : String), s.instances[p]? = some i →
      i.path role = some path → i.step.bound role → s.accepts path = some (p, role)) ∧
    (∀ (p : ℕ) (role : SocketRole) (listening : Bool) (mode : UInt32),
      .socket (some (p, role)) listening mode ∈ s.fs.nodes → mode &&& ~~~role.mode = 0) ∧
    (∀ (p : ℕ) (i : Instance) (role : SocketRole) (path : String), s.instances[p]? = some i →
      i.path role = some path → i.step.permitted role →
        s.fs.node? path = some (.socket (some (p, role)) true role.mode)) ∧
    ∀ (p : ℕ) (i : Instance), s.instances[p]? = some i →
      i.step.Umasked i.ambientUmask i.umask := by
  have hexclusive := exclusive_reached hfs h
  refine ⟨?_, ?_, ?_, ?_, ?_⟩
  · intro p q i j role role' path hi hj hpath hpath' hholds hholds'
    exact hexclusive.same_lock hi hj hpath hpath' hholds hholds'
  · intro p i role path hi hpath hbound
    exact accepts_of_bound hexclusive hi hpath hbound
  · intro p role listening mode hnode
    exact hexclusive.modes _ hnode
  · intro p i role path hi hpath hpermitted
    obtain ⟨n, mode, hat, hmode⟩ := (hexclusive.standing p i hi).bound role path hpath
      (StartupStep.bound_of_permitted hpermitted)
    rw [hat.node?_eq, hmode hpermitted]
  · intro p i hi
    exact (hexclusive.standing p i hi).umask

/-- A second instance of the same config is started while the first one serves, and gives up. -/
theorem instances_exclusive_twice :
    let fs : FileSystem (ℕ × SocketRole) := ⟨fun _ => none, []⟩
    let actions : List Action := .spawn "/run/policy.sock" none 0o22 ::
      List.replicate 10 (.step 0 false) ++
      [.spawn "/run/policy.sock" none 0o22, .step 1 false, .step 1 false]
    ∃ s, replay next keepsApart (start fs) actions = some s ∧
      s.instances.map Instance.step = [.serving, .exited] ∧
      s.accepts "/run/policy.sock" = some (0, .policy) := by
  intro fs actions
  have hreplay : (replay next keepsApart (start fs) actions).map
      (fun s => (s.instances.map Instance.step, s.instances[0]?.map Instance.socket)) =
        some ([.serving, .exited], some "/run/policy.sock") := by
    decide +kernel
  obtain ⟨s, hs, hsteps⟩ := Option.map_eq_some_iff.mp hreplay
  obtain ⟨hsteps, hsocket⟩ := Prod.mk.inj hsteps
  obtain ⟨i, hi, hpath⟩ := Option.map_eq_some_iff.mp hsocket
  have hserving : i.step = .serving := by
    have hfirst : (s.instances.map Instance.step)[0]? = some StartupStep.serving := by
      rw [hsteps]
      rfl
    rw [List.getElem?_map, hi] at hfirst
    exact Option.some.inj hfirst
  refine ⟨s, hs, hsteps, ?_⟩
  exact (instances_exclusive fs (by simp [fs]) s (Reachable.start.of_replay actions hs)).2.1 0 i
    .policy _ hi (congrArg some hpath) (by rw [hserving]; rfl)

end Host
end PostfixRatelimitd
