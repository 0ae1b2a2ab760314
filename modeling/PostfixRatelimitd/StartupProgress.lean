import PostfixRatelimitd.StartupExclusion

/-!
# What dead instances leave behind is no obstacle

A lock file whose holder is gone can be locked, and a socket that nobody listens on is replaced.
So an instance that is started while no other one that runs has its paths comes to serve, after
as many calls as there are, whatever the other instances do meanwhile.
-/
namespace PostfixRatelimitd
open FileSystem

theorem lockPath_injective : Function.Injective lockPath := by
  intro path path' h
  have hlist := congrArg String.toList h
  unfold lockPath at hlist
  rw [String.toList_append, String.toList_append] at hlist
  exact String.toList_inj.mp (List.append_cancel_right hlist)

/-- The name of the socket of this role is free. -/
def StartupStep.cleared : StartupStep → SocketRole → Bool
  | narrowUmask r, role | bind r _, role => r == role
  | _, _ => false

/-- The socket that the next call is about. -/
def StartupStep.role? : StartupStep → Option SocketRole
  | openLock role | tryLock role _ | connect role | removeFile role | narrowUmask role | bind role _
  | listen role _ _ | restoreUmask role _ _ | setPermissions role => some role
  | connectRedis | serving | exited => none

namespace Host
variable {s s' : Host} {p q : ℕ} {i j : Instance} {path : String} {n : ℕ}
  {node : Node (ℕ × SocketRole)}

/-! ## Locks and sockets that are in use have their instances -/

/-- A lock that is held belongs to an instance that runs, for the socket that it is about; where
somebody listens, an instance that runs has bound the socket; and a socket has not the name of a
lock file, or it has the name of an instance's socket. -/
def Accounted (s : Host) (path : String) : Node (ℕ × SocketRole) → Prop
  | .regular none => True
  | .regular (some (q, role)) => ∃ j socket, s.instances[q]? = some j ∧
      j.path role = some socket ∧ j.step.holds role ∧ path = lockPath socket
  | .socket owner listening _ =>
    (∀ q role, owner = some (q, role) → listening = true → ∃ j, s.instances[q]? = some j ∧
      (j.step ≠ .exited → j.path role = some path ∧ j.step.bound role)) ∧
    ((∀ socket, path ≠ lockPath socket) ∨ ∃ j ∈ s.instances, ∃ role, j.path role = some path)

structure Tidy (s : Host) : Prop where
  linked : s.fs.Linked
  accounted : ∀ path n node, s.fs.At path n node → Accounted s path node
  cleared : ∀ (q : ℕ) (j : Instance) (role : SocketRole) (path : String), s.instances[q]? = some j →
    j.step.cleared role → j.path role = some path → s.fs.files path = none
  named : ∀ (q : ℕ) (j : Instance) (role : SocketRole), s.instances[q]? = some j →
    j.step.role? = some role → (j.path role).isSome

/-- An instance that goes on holds what it held and has bound what it had. -/
structure Onward (i : Instance) (step : StartupStep) : Prop where
  holds : ∀ role, i.step.holds role → step.holds role
  bound : ∀ role, i.step.bound role → step.bound role
  named : ∀ role, step.role? = some role → (i.path role).isSome
  running : i.step ≠ .exited

theorem Accounted.advance (h : Accounted s path node) (hi : s.instances[p]? = some i)
    {step : StartupStep} (honward : Onward i step) (umask : UInt32)
    (fs : FileSystem (ℕ × SocketRole)) :
    Accounted (s.advance p { i with umask := umask } fs step) path node := by
  have hset : ∀ (q : ℕ) (j : Instance), s.instances[q]? = some j → ∃ j' : Instance,
      (s.advance p { i with umask := umask } fs step).instances[q]? = some j' ∧
        j'.path = j.path ∧ (∀ role, j.step.holds role → j'.step.holds role) ∧
          (∀ role, j.step.bound role → j'.step.bound role) ∧
            (j'.step ≠ .exited → j.step ≠ .exited) := by
    intro q j hj
    by_cases hq : p = q
    · subst hq
      obtain rfl := Option.some.inj (hi.symm.trans hj)
      exact ⟨_, List.getElem?_set_self (List.getElem?_eq_some_iff.mp hi).1, rfl, honward.holds,
        honward.bound, fun _ => honward.running⟩
    · exact ⟨j, (List.getElem?_set_ne hq).trans hj, rfl, fun _ => id, fun _ => id, id⟩
  match node, h with
  | .regular none, _ => trivial
  | .regular (some (q, role)), ⟨j, socket, hj, hpath, hholds, hname⟩ =>
    obtain ⟨j', hj', hsame, hholds', _, _⟩ := hset q j hj
    exact ⟨j', socket, hj', hsame ▸ hpath, hholds' role hholds, hname⟩
  | .socket owner listening mode, ⟨hlistens, hnames⟩ =>
    refine ⟨?_, hnames.imp_right ?_⟩
    · intro q role howner hlistening
      obtain ⟨j, hj, hbound⟩ := hlistens q role howner hlistening
      obtain ⟨j', hj', hsame, _, hbound', hrunning⟩ := hset q j hj
      refine ⟨j', hj', fun hruns => ?_⟩
      obtain ⟨hpath, hbound⟩ := hbound (hrunning hruns)
      exact ⟨hsame ▸ hpath, hbound' role hbound⟩
    · rintro ⟨j, hj, role, hpath⟩
      obtain ⟨q, hq⟩ := List.getElem?_of_mem hj
      obtain ⟨j', hj', hsame, _⟩ := hset q j hq
      exact ⟨j', List.mem_of_getElem? hj', role, hsame ▸ hpath⟩

theorem Accounted.exit (h : Accounted s path node) (hi : s.instances[p]? = some i)
    (umask : UInt32) :
    Accounted (s.exit p { i with umask := umask }) path
      (Node.release (fun key => key.1 == p) node) := by
  have hother : ∀ q j, p ≠ q → s.instances[q]? = some j →
      (s.exit p { i with umask := umask }).instances[q]? = some j := by
    intro q j hq hj
    exact (List.getElem?_set_ne hq).trans hj
  have hself : (s.exit p { i with umask := umask }).instances[p]? =
      some { i with umask := umask, step := .exited } :=
    List.getElem?_set_self (List.getElem?_eq_some_iff.mp hi).1
  match node, h with
  | .regular none, _ => trivial
  | .regular (some (q, role)), ⟨j, socket, hj, hpath, hholds, hname⟩ =>
    by_cases hq : p = q
    · subst hq
      simp [Node.release, Option.filter, Accounted]
    · simp only [Node.release, Option.filter, beq_eq_false_iff_ne.mpr (Ne.symm hq), Bool.not_false,
        if_true]
      exact ⟨j, socket, hother q j hq hj, hpath, hholds, hname⟩
  | .socket owner listening mode, ⟨hlistens, hnames⟩ =>
    refine ⟨?_, hnames.imp_right ?_⟩
    · intro q role howner hlistening
      by_cases hq : p = q
      · subst hq
        exact ⟨_, hself, fun hruns => absurd rfl hruns⟩
      · obtain ⟨j, hj, hbound⟩ := hlistens q role howner hlistening
        exact ⟨j, hother q j hq hj, hbound⟩
    · rintro ⟨j, hj, role, hpath⟩
      obtain ⟨q, hq⟩ := List.getElem?_of_mem hj
      by_cases hpq : p = q
      · subst hpq
        obtain rfl := Option.some.inj (hi.symm.trans hq)
        exact ⟨_, List.mem_of_getElem? hself, role, hpath⟩
      · exact ⟨j, List.mem_of_getElem? (hother q j hpq hq), role, hpath⟩

theorem Tidy.exit (h : s.Tidy) (hi : s.instances[p]? = some i) (umask : UInt32) :
    (s.exit p { i with umask := umask }).Tidy where
  linked := h.linked.of_nodes (List.length_map _)
  accounted path n node hat := by
    obtain ⟨node', hat', rfl⟩ := hat.of_release
    exact (h.accounted path n node' hat').exit hi umask
  cleared q j role path hj hcleared hpath := by
    by_cases hq : p = q
    · subst hq
      have hself := (List.getElem?_set_self (List.getElem?_eq_some_iff.mp hi).1).symm.trans hj
      obtain rfl := Option.some.inj hself
      cases hcleared
    · exact h.cleared q j role path ((List.getElem?_set_ne hq).symm.trans hj) hcleared hpath
  named q j role hj hrole := by
    by_cases hq : p = q
    · subst hq
      have hself := (List.getElem?_set_self (List.getElem?_eq_some_iff.mp hi).1).symm.trans hj
      obtain rfl := Option.some.inj hself
      cases hrole
    · exact h.named q j role ((List.getElem?_set_ne hq).symm.trans hj) hrole

/-- An instance goes on after a call. -/
theorem Tidy.advance (h : s.Tidy) (hi : s.instances[p]? = some i) {step : StartupStep}
    (honward : Onward i step) (umask : UInt32) {fs : FileSystem (ℕ × SocketRole)}
    (hlinked : fs.Linked)
    (hat : ∀ path n node, fs.At path n node → s.fs.At path n node ∨
      Accounted (s.advance p { i with umask := umask } fs step) path node)
    (hothers : ∀ (q : ℕ) (j : Instance) (role : SocketRole) (path : String), p ≠ q →
      s.instances[q]? = some j → j.step.cleared role → j.path role = some path →
        fs.files path = none)
    (hown : ∀ role path, step.cleared role → i.path role = some path → fs.files path = none) :
    (s.advance p { i with umask := umask } fs step).Tidy where
  linked := hlinked
  accounted path n node hnow := by
    rcases hat path n node hnow with hbefore | hnew
    · exact (h.accounted path n node hbefore).advance hi honward umask fs
    · exact hnew
  cleared q j role path hj hcleared hpath := by
    by_cases hq : p = q
    · subst hq
      have hself := (List.getElem?_set_self (List.getElem?_eq_some_iff.mp hi).1).symm.trans hj
      obtain rfl := Option.some.inj hself
      exact hown role path hcleared hpath
    · exact hothers q j role path hq ((List.getElem?_set_ne hq).symm.trans hj) hcleared hpath
  named q j role hj hrole := by
    by_cases hq : p = q
    · subst hq
      have hself := (List.getElem?_set_self (List.getElem?_eq_some_iff.mp hi).1).symm.trans hj
      obtain rfl := Option.some.inj hself
      exact honward.named role hrole
    · exact h.named q j role ((List.getElem?_set_ne hq).symm.trans hj) hrole

/-- A call that changes no file. -/
theorem Tidy.quiet (h : s.Tidy) (hi : s.instances[p]? = some i) {step : StartupStep}
    (honward : Onward i step) (umask : UInt32)
    (hown : ∀ role, step.cleared role → i.step.cleared role) :
    (s.advance p { i with umask := umask } s.fs step).Tidy :=
  h.advance hi honward umask h.linked (fun _ _ _ => .inl)
    (fun q j role path _ hj => h.cleared q j role path hj)
    (fun role path hcleared hpath => h.cleared p i role path hi (hown role hcleared) hpath)

/-! ## One step -/

theorem files_create_of_ne {fs : FileSystem (ℕ × SocketRole)} {path path' : String}
    {new : Node (ℕ × SocketRole)} (hne : path ≠ path') (hfree : fs.files path = none) :
    (fs.create path' new).files path = none :=
  (Function.update_of_ne hne _ _).trans hfree

theorem holds_of_cleared {step : StartupStep} {role role' : SocketRole} (h : step.cleared role) :
    step.holds role' := by
  cases step with
  | narrowUmask | bind => rfl
  | _ => cases h

theorem afterLock_onward {role : SocketRole} {file : ℕ} (hstep : i.step = .tryLock role file) :
    Onward i (i.afterLock role) where
  holds role' h := by
    rw [hstep] at h
    cases role with
    | policy => cases h
    | control => rfl
  bound role' h := by
    rw [hstep] at h
    cases h
  named role' h := by
    unfold Instance.afterLock at h
    cases role with
    | policy =>
      dsimp only at h
      split_ifs at h with hcontrol
      · obtain rfl := Option.some.inj h
        exact hcontrol
      · cases h
    | control => cases h
  running := by simp [hstep]

theorem holds_afterLock_self (i : Instance) (role : SocketRole) :
    (i.afterLock role).holds role := by
  unfold Instance.afterLock
  cases role with
  | policy => split_ifs <;> rfl
  | control => rfl

theorem afterBind_onward {role : SocketRole} (hstep : i.step = .setPermissions role) :
    Onward i (i.afterBind role) where
  holds role' _ := by
    unfold Instance.afterBind
    cases role with
    | policy => dsimp only; split_ifs <;> rfl
    | control => rfl
  bound role' h := by
    rw [hstep] at h
    unfold Instance.afterBind
    cases role with
    | policy =>
      cases role' with
      | policy => dsimp only; split_ifs <;> rfl
      | control => cases h
    | control => rfl
  named role' h := by
    unfold Instance.afterBind at h
    cases role with
    | policy =>
      dsimp only at h
      split_ifs at h with hcontrol
      · obtain rfl := Option.some.inj h
        exact hcontrol
      · cases h
    | control => cases h
  running := by simp [hstep]

theorem connectNext_tidy (h : s.Tidy) (hi : s.instances[p]? = some i) {role : SocketRole}
    (hstep : i.step = .connect role) {path : String} (hpath : i.path role = some path)
    (failed : Bool) :
    (s.connectNext p i role path failed).Tidy := by
  unfold connectNext
  split_ifs
  · exact h.exit hi i.umask
  · refine h.quiet hi
      ⟨fun _ _ => rfl, by rw [hstep]; exact fun _ => id, ?_, by simp [hstep]⟩ i.umask
      (by intro role' hcleared; cases hcleared)
    rintro role' ⟨⟩
    simp [hpath]

theorem removeFile_tidy (h : s.Tidy) (hi : s.instances[p]? = some i) {role : SocketRole}
    (hstep : i.step = .removeFile role) {path : String} (hpath : i.path role = some path)
    (failed : Bool) :
    (s.proceed p i (attempt failed (some (s.fs.unlink path))) (.narrowUmask role)).Tidy := by
  unfold proceed
  split
  · rename_i fs hunlink
    obtain rfl := Option.some.inj (attempt_eq_some hunlink)
    refine h.advance hi ⟨fun _ _ => rfl, by rw [hstep]; exact fun _ => id, ?_, by simp [hstep]⟩
      i.umask (h.linked.unlink path) (fun _ _ _ hat => .inl hat.of_unlink) ?_ ?_
    · rintro role' ⟨⟩
      simp [hpath]
    · intro q j role' path' _ hj hcleared hpath'
      have hfree := h.cleared q j role' path' hj hcleared hpath'
      show Function.update s.fs.files path none path' = none
      rw [Function.update_apply]
      split_ifs
      · rfl
      · exact hfree
    · intro role' path' hcleared hpath'
      obtain rfl : role = role' := by simpa [StartupStep.cleared] using hcleared
      obtain rfl := Option.some.inj (hpath.symm.trans hpath')
      exact Function.update_self _ _ _
  · exact h.exit hi i.umask

section Steps
variable (h : s.Tidy) (hexclusive : s.Exclusive) (hi : s.instances[p]? = some i)
include h hexclusive hi

theorem openLockNext_tidy {role : SocketRole} (hstep : i.step = .openLock role) {path : String}
    (hpath : i.path role = some path) (failed : Bool) :
    (s.openLockNext p i role path failed).Tidy := by
  unfold openLockNext
  split
  · rename_i file fs hopen
    have honward : Onward i (.tryLock role file) :=
      ⟨by rw [hstep]; exact fun _ => id, by rw [hstep]; exact fun _ => id, by
        rintro role' ⟨⟩
        simp [hpath], by simp [hstep]⟩
    rcases openCreate_cases (attempt_eq_some hopen) with ⟨_, _, rfl⟩ | ⟨_, _, rfl⟩
    · refine h.advance hi honward i.umask (h.linked.create _ _) ?_ ?_ ?_
      · intro path' n node hat
        refine (hat.of_create h.linked).imp_right ?_
        rintro ⟨_, rfl⟩
        trivial
      · intro q j role' path' _ hj hcleared hpath'
        refine files_create_of_ne ?_ (h.cleared q j role' path' hj hcleared hpath')
        exact hexclusive.apart j (List.mem_of_getElem? hj) i
          (List.mem_of_getElem? hi) role' role _ _
          hpath' hpath
      · intro role' path' hcleared
        cases hcleared
    · exact h.quiet hi honward i.umask (by intro role' hcleared; cases hcleared)
  · exact h.exit hi i.umask

theorem tryLock_tidy {role : SocketRole} {file : ℕ} (hstep : i.step = .tryLock role file)
    (failed : Bool) :
    (s.proceed p i (attempt failed (s.fs.tryLock file (p, role))) (i.afterLock role)).Tidy := by
  unfold proceed
  split
  · rename_i fs hlock
    obtain ⟨hnode, rfl⟩ := tryLock_eq_some (attempt_eq_some hlock)
    obtain ⟨path, hpath⟩ := Option.isSome_iff_exists.mp (h.named p i role hi (by rw [hstep]; rfl))
    obtain ⟨holder, hopened⟩ := (hexclusive.standing p i hi).opened role file path hstep hpath
    refine h.advance hi (afterLock_onward hstep) i.umask (h.linked.of_nodes (List.length_set))
      ?_ (fun q j role' path' _ hj => h.cleared q j role' path' hj) ?_
    · intro path' n node hat
      refine hat.of_set.imp_right ?_
      rintro ⟨hfile, rfl⟩
      exact ⟨_, path, List.getElem?_set_self (List.getElem?_eq_some_iff.mp hi).1, hpath,
        holds_afterLock_self i role, h.linked.unique hfile hopened.file⟩
    · intro role' path' hcleared
      rcases i.afterLock_cases role with hafter | hafter <;> rw [hafter] at hcleared <;>
        cases hcleared
  · exact h.exit hi i.umask

theorem bindNext_tidy {role : SocketRole} {previousUmask : UInt32}
    (hstep : i.step = .bind role previousUmask) {path : String} (hpath : i.path role = some path)
    (failed : Bool) : (s.bindNext p i role path previousUmask failed).Tidy := by
  have hnamed : ∀ role', some role = some role' → (i.path role').isSome := by
    rintro role' ⟨⟩
    simp [hpath]
  unfold bindNext
  split
  · rename_i file fs hbind
    have honward : Onward i (.listen role previousUmask file) :=
      ⟨fun _ _ => rfl, by rw [hstep]; exact fun _ => id, hnamed, by simp [hstep]⟩
    obtain ⟨_, _, rfl⟩ := bind_eq_some (attempt_eq_some hbind)
    refine h.advance hi honward i.umask (h.linked.create _ _) ?_ ?_
      (by intro role' path' hcleared; cases hcleared)
    · intro path' n node hat
      refine (hat.of_create h.linked).imp_right ?_
      rintro ⟨rfl, rfl⟩
      refine ⟨by simp, .inr ⟨_, List.mem_of_getElem?
        (List.getElem?_set_self (List.getElem?_eq_some_iff.mp hi).1), role, hpath⟩⟩
    · intro q j role' path' hq hj hcleared hpath'
      refine files_create_of_ne ?_ (h.cleared q j role' path' hj hcleared hpath')
      rintro rfl
      -- Both would hold the lock for the path.
      exact hq (hexclusive.same_lock hi hj hpath hpath' (by rw [hstep]; rfl)
        (holds_of_cleared hcleared)).1
  · have honward : Onward i (.restoreUmask role previousUmask false) :=
      ⟨fun _ _ => rfl, by rw [hstep]; simp [StartupStep.bound], hnamed, by simp [hstep]⟩
    exact h.quiet hi honward i.umask (by intro role' hcleared; cases hcleared)

theorem listenNext_tidy {role : SocketRole} {previousUmask : UInt32} {file : ℕ}
    (hstep : i.step = .listen role previousUmask file) {path : String}
    (hpath : i.path role = some path) (failed : Bool) :
    (s.listenNext p i role previousUmask file failed).Tidy := by
  have hnamed : ∀ role', some role = some role' → (i.path role').isSome := by
    rintro role' ⟨⟩
    simp [hpath]
  have honward : ∀ done, Onward i (.restoreUmask role previousUmask done) := by
    intro done
    refine ⟨fun _ _ => rfl, ?_, hnamed, by simp [hstep]⟩
    rw [hstep]
    simp only [StartupStep.bound, Bool.or_eq_true]
    exact fun _ => .inr
  obtain ⟨mode, hcreated⟩ := (hexclusive.standing p i hi).created role previousUmask file path hstep
    hpath
  unfold listenNext
  split
  · rename_i fs hlisten
    obtain rfl := Option.some.inj ((listen_eq hcreated).symm.trans (attempt_eq_some hlisten))
    refine h.advance hi (honward true) i.umask (h.linked.of_nodes List.length_set) ?_
      (fun q j role' path' _ hj => h.cleared q j role' path' hj)
      (by intro role' path' hcleared; cases hcleared)
    intro path' n node hat
    refine hat.of_set.imp_right ?_
    rintro ⟨hfile, rfl⟩
    obtain rfl := h.linked.unique hfile hcreated.file
    have hself := List.getElem?_set_self
      (a := { i with step := .restoreUmask role previousUmask true })
      (List.getElem?_eq_some_iff.mp hi).1
    refine ⟨?_, .inr ⟨_, List.mem_of_getElem? hself, role, hpath⟩⟩
    rintro q role' ⟨⟩ _
    exact ⟨_, hself, fun _ => ⟨hpath, by simp [StartupStep.bound]⟩⟩
  · exact h.quiet hi (honward false) i.umask (by intro role' hcleared; cases hcleared)

theorem setPermissions_tidy {role : SocketRole} (hstep : i.step = .setPermissions role)
    {path : String} (hpath : i.path role = some path) (failed : Bool) :
    (s.proceed p i (attempt failed (s.fs.chmod path role.mode)) (i.afterBind role)).Tidy := by
  obtain ⟨n, mode, hbound, _⟩ := (hexclusive.standing p i hi).bound role path hpath
    (by simp [hstep, StartupStep.bound])
  unfold proceed
  split
  · rename_i fs hchmod
    obtain rfl := Option.some.inj ((chmod_eq hbound).symm.trans (attempt_eq_some hchmod))
    refine h.advance hi (afterBind_onward hstep) i.umask (h.linked.of_nodes List.length_set) ?_
      (fun q j role' path' _ hj => h.cleared q j role' path' hj) ?_
    · intro path' n' node hat
      refine hat.of_set.imp_right ?_
      rintro ⟨hfile, rfl⟩
      obtain rfl := h.linked.unique hfile hbound.file
      exact (h.accounted _ n _ hbound).advance hi (afterBind_onward hstep) i.umask _
    · intro role' path' hcleared
      rcases i.afterBind_cases role with hafter | hafter <;> rw [hafter] at hcleared <;>
        cases hcleared
  · exact h.exit hi i.umask

theorem instanceNext_tidy {failed : Bool} (hnext : s.instanceNext p i failed = some s') :
    s'.Tidy := by
  unfold instanceNext at hnext
  cases hstep : i.step with
  | openLock role =>
    simp only [hstep] at hnext
    obtain ⟨path, hpath, rfl⟩ := Option.map_eq_some_iff.mp hnext
    exact openLockNext_tidy h hexclusive hi hstep hpath failed
  | tryLock role file =>
    simp only [hstep, Option.some.injEq] at hnext
    exact hnext ▸ tryLock_tidy h hexclusive hi hstep failed
  | connectRedis =>
    simp only [hstep, Option.some.injEq] at hnext
    subst hnext
    unfold proceed
    split
    · rename_i fs hconnect
      obtain rfl := Option.some.inj (attempt_eq_some hconnect)
      refine h.quiet hi ⟨fun _ _ => rfl,
        by rw [hstep]; exact fun _ => False.elim ∘ Bool.noConfusion,
        ?_, by simp [hstep]⟩ i.umask (by intro role hcleared; cases hcleared)
      rintro role ⟨⟩
      rfl
    · exact h.exit hi i.umask
  | connect role =>
    simp only [hstep] at hnext
    obtain ⟨path, hpath, rfl⟩ := Option.map_eq_some_iff.mp hnext
    exact connectNext_tidy h hi hstep hpath failed
  | removeFile role =>
    simp only [hstep] at hnext
    obtain ⟨path, hpath, rfl⟩ := Option.map_eq_some_iff.mp hnext
    exact removeFile_tidy h hi hstep hpath failed
  | narrowUmask role =>
    simp only [hstep, Option.some.injEq] at hnext
    subst hnext
    refine h.quiet hi ⟨fun _ _ => rfl, by rw [hstep]; exact fun _ => id, ?_, by simp [hstep]⟩ _
      (by rw [hstep]; exact fun _ => id)
    rintro role' ⟨⟩
    exact h.named p i role hi (by rw [hstep]; rfl)
  | bind role previousUmask =>
    simp only [hstep] at hnext
    obtain ⟨path, hpath, rfl⟩ := Option.map_eq_some_iff.mp hnext
    exact bindNext_tidy h hexclusive hi hstep hpath failed
  | listen role previousUmask file =>
    simp only [hstep] at hnext
    obtain ⟨path, hpath, rfl⟩ := Option.map_eq_some_iff.mp hnext
    exact listenNext_tidy h hexclusive hi hstep hpath failed
  | restoreUmask role previousUmask bound =>
    simp only [hstep, Option.some.injEq] at hnext
    subst hnext
    split_ifs with hbound
    · subst hbound
      refine h.quiet hi
        ⟨fun _ _ => rfl, by rw [hstep]; simp [StartupStep.bound], ?_, by simp [hstep]⟩
        _ (by intro role' hcleared; cases hcleared)
      rintro role' ⟨⟩
      exact h.named p i role hi (by rw [hstep]; rfl)
    · exact h.exit hi previousUmask
  | setPermissions role =>
    simp only [hstep] at hnext
    obtain ⟨path, hpath, rfl⟩ := Option.map_eq_some_iff.mp hnext
    exact setPermissions_tidy h hexclusive hi hstep hpath failed
  | serving | exited =>
    simp only [hstep] at hnext
    cases hnext

end Steps

/-- An instance is started. -/
theorem Tidy.spawn (h : s.Tidy) (socket : String) (controlSocket : Option String) (umask : UInt32) :
    Tidy { s with
      instances := s.instances ++ [⟨socket, controlSocket, .openLock .policy, umask, umask⟩] } where
  linked := h.linked
  accounted path n node hat := by
    have hold : ∀ {q : ℕ} {j : Instance}, s.instances[q]? = some j →
        (s.instances ++ [⟨socket, controlSocket, .openLock .policy, umask, umask⟩])[q]? = some j :=
      fun hj => (List.getElem?_append_left (List.getElem?_eq_some_iff.mp hj).1).trans hj
    match node, h.accounted path n node hat with
    | .regular none, _ => trivial
    | .regular (some (q, role)), ⟨j, socket', hj, hrest⟩ => exact ⟨j, socket', hold hj, hrest⟩
    | .socket owner listening mode, ⟨hlistens, hnames⟩ =>
      refine ⟨?_, hnames.imp_right ?_⟩
      · intro q role howner hlistening
        obtain ⟨j, hj, hbound⟩ := hlistens q role howner hlistening
        exact ⟨j, hold hj, hbound⟩
      · rintro ⟨j, hj, hpath⟩
        exact ⟨j, List.mem_append_left _ hj, hpath⟩
  cleared q j role path hj hcleared hpath := by
    rw [List.getElem?_append] at hj
    split_ifs at hj
    · exact h.cleared q j role path hj hcleared hpath
    · obtain rfl := List.mem_singleton.mp (List.mem_of_getElem? hj)
      cases hcleared
  named q j role hj hrole := by
    rw [List.getElem?_append] at hj
    split_ifs at hj
    · exact h.named q j role hj hrole
    · obtain rfl := List.mem_singleton.mp (List.mem_of_getElem? hj)
      obtain rfl := Option.some.inj hrole
      rfl

theorem Tidy.step {a : Action} (h : s.Tidy) (hexclusive : s.Exclusive)
    (hnext : s.next a = some s') :
    s'.Tidy := by
  cases a with
  | spawn socket controlSocket umask =>
    obtain rfl := Option.some.inj hnext
    exact h.spawn socket controlSocket umask
  | step p failed =>
    obtain ⟨i, hi, hstep⟩ := Option.bind_eq_some_iff.mp hnext
    exact instanceNext_tidy h hexclusive hi hstep
  | kill p =>
    obtain ⟨i, hi, rfl⟩ := Option.map_eq_some_iff.mp hnext
    exact h.exit (Option.filter_eq_some_iff.mp hi).1 i.umask

end Host

/-! ## An instance on its way -/

namespace Instance

/-- The calls that are still due for the second lock, and those for the second socket. -/
def secondLock (i : Instance) : SocketRole → ℕ
  | .policy => if i.controlSocket.isSome then 2 else 0
  | .control => 0

def secondSocket (i : Instance) : SocketRole → ℕ
  | .policy => if i.controlSocket.isSome then 7 else 0
  | .control => 0

/-- How many calls are left until it serves. -/
def callsLeft (i : Instance) : ℕ :=
  match i.step with
  | .openLock role => i.secondLock role + i.secondSocket .policy + 10
  | .tryLock role _ => i.secondLock role + i.secondSocket .policy + 9
  | .connectRedis => i.secondSocket .policy + 8
  | .connect role => i.secondSocket role + 7
  | .removeFile role => i.secondSocket role + 6
  | .narrowUmask role => i.secondSocket role + 5
  | .bind role _ => i.secondSocket role + 4
  | .listen role _ _ => i.secondSocket role + 3
  | .restoreUmask role _ _ => i.secondSocket role + 2
  | .setPermissions role => i.secondSocket role + 1
  | .serving | .exited => 0

end Instance

namespace Host
variable {s s' : Host} {p : ℕ} {i : Instance} {path : String}

/-- An instance has not failed, and no other one that runs has one of its paths. -/
structure OnTrack (s : Host) (p : ℕ) (i : Instance) : Prop where
  here : s.instances[p]? = some i
  running : i.step ≠ .exited
  bound : ∀ role previousUmask, i.step ≠ .restoreUmask role previousUmask false
  distinct : i.controlSocket ≠ some i.socket
  alone : ∀ (q : ℕ) (j : Instance), q ≠ p → s.instances[q]? = some j → j.step ≠ .exited →
    ∀ role role' path, i.path role = some path → j.path role' ≠ some path

theorem OnTrack.advance (h : s.OnTrack p i) {step : StartupStep} (hrunning : step ≠ .exited)
    (hbound : ∀ role previousUmask, step ≠ .restoreUmask role previousUmask false) (umask : UInt32)
    (fs : FileSystem (ℕ × SocketRole)) :
    (s.advance p { i with umask := umask } fs step).OnTrack p
      { i with umask := umask, step := step } where
  here := List.getElem?_set_self (List.getElem?_eq_some_iff.mp h.here).1
  running := hrunning
  bound := hbound
  distinct := h.distinct
  alone q j hq hj := h.alone q j hq ((List.getElem?_set_ne (Ne.symm hq)).symm.trans hj)

/-- The sockets of an instance have their own names, and no other instance that runs has one. -/
theorem OnTrack.same_role (h : s.OnTrack p i) {q : ℕ} {j : Instance} {role role' : SocketRole}
    (hj : s.instances[q]? = some j) (hruns : j.step ≠ .exited) (hpath : i.path role = some path)
    (hpath' : j.path role' = some path) : q = p ∧ j = i ∧ role' = role := by
  by_cases hq : q = p
  · subst hq
    obtain rfl := Option.some.inj (h.here.symm.trans hj)
    refine ⟨rfl, rfl, ?_⟩
    cases role with
    | policy =>
      cases role' with
      | policy => rfl
      | control => exact absurd (hpath'.trans hpath.symm) h.distinct
    | control =>
      cases role' with
      | policy => exact absurd (hpath.trans hpath'.symm) h.distinct
      | control => rfl
  · exact absurd hpath' (h.alone q j hq hj hruns role role' path hpath)

section GoesOn
variable (h : s.OnTrack p i) (htidy : s.Tidy) (hexclusive : s.Exclusive)

include h htidy hexclusive in
/-- The lock file is there or can be created. -/
theorem openCreate_succeeds {role : SocketRole} (hpath : i.path role = some path) :
    ∃ file fs, s.fs.openCreate (lockPath path) = some (file, fs) := by
  unfold openCreate
  cases hfile : s.fs.files (lockPath path) with
  | none => exact ⟨_, _, rfl⟩
  | some n =>
    obtain ⟨node, hnode⟩ : ∃ node, s.fs.nodes[n]? = some node :=
      ⟨_, List.getElem?_eq_getElem (htidy.linked.inRange hfile)⟩
    simp only [hnode]
    cases node with
    | regular holder => exact ⟨_, _, rfl⟩
    | socket owner listening mode =>
      rcases (htidy.accounted _ n _ ⟨hfile, hnode⟩).2 with hname | ⟨j, hj, role', hpath'⟩
      · exact absurd rfl (hname path)
      · exact absurd rfl (hexclusive.apart j hj i (List.mem_of_getElem? h.here) role' role _ _
          hpath' hpath)

include h htidy hexclusive in
/-- Nobody holds the lock, since its holder would run. -/
theorem tryLock_succeeds {role : SocketRole} {file : ℕ} (hstep : i.step = .tryLock role file)
    (hpath : i.path role = some path) : ∃ fs, s.fs.tryLock file (p, role) = some fs := by
  obtain ⟨holder, hopened⟩ := (hexclusive.standing p i h.here).opened role file path hstep hpath
  cases holder with
  | none =>
    unfold tryLock
    rw [hopened.node]
    exact ⟨_, rfl⟩
  | some key =>
    obtain ⟨q, role'⟩ := key
    obtain ⟨j, socket, hj, hpath', hholds, hname⟩ := htidy.accounted _ file _ hopened
    obtain rfl := lockPath_injective hname
    have hruns : j.step ≠ .exited := by
      intro hexited
      rw [hexited] at hholds
      cases hholds
    obtain ⟨_, rfl, rfl⟩ := h.same_role hj hruns hpath hpath'
    rw [hstep] at hholds
    cases role' <;> cases hholds

include h htidy in
/-- Nobody listens on the socket, since the listener would run. -/
theorem accepts_eq_none {role : SocketRole} (hstep : i.step = .connect role)
    (hpath : i.path role = some path) : s.accepts path = none := by
  cases haccepts : s.accepts path with
  | none => rfl
  | some key =>
    unfold accepts at haccepts
    split at haccepts
    · rename_i key' mode hnode
      split_ifs at haccepts with hruns
      obtain ⟨n, hfile, hat⟩ := Option.bind_eq_some_iff.mp hnode
      obtain ⟨hlistens, _⟩ := htidy.accounted path n _ ⟨hfile, hat⟩
      obtain ⟨j, hj, hbound⟩ := hlistens key'.1 key'.2 rfl rfl
      have hruns' : j.step ≠ .exited := by
        unfold running at hruns
        rw [hj] at hruns
        simpa using hruns
      obtain ⟨hpath', hbound⟩ := hbound hruns'
      obtain ⟨_, rfl, hrole⟩ := h.same_role hj hruns' hpath hpath'
      rw [hrole, hstep] at hbound
      cases role <;> cases hbound
    · cases haccepts

include h htidy hexclusive in
/-- The next call succeeds, and there is one less to come. -/
theorem OnTrack.goes_on (hserving : i.step ≠ .serving) : ∃ s' i',
    s.next (.step p false) = some s' ∧ s'.OnTrack p i' ∧ i'.callsLeft + 1 = i.callsLeft ∧
      i'.socket = i.socket ∧ i'.controlSocket = i.controlSocket := by
  have hpath : ∀ role, i.step.role? = some role → ∃ path, i.path role = some path :=
    fun role hrole => Option.isSome_iff_exists.mp (htidy.named p i role h.here hrole)
  have hnext : s.next (.step p false) = s.instanceNext p i false := by
    show s.instances[p]?.bind _ = _
    rw [h.here, Option.bind_some]
  -- The instance with its next step, if the call leaves it on its way.
  have hgo : ∀ (step : StartupStep) (umask : UInt32) (fs : FileSystem (ℕ × SocketRole)),
      s.instanceNext p i false = some (s.advance p { i with umask := umask } fs step) →
      step ≠ .exited → (∀ role previousUmask, step ≠ .restoreUmask role previousUmask false) →
      Instance.callsLeft { i with umask := umask, step := step } + 1 = i.callsLeft → ∃ s' i',
        s.next (.step p false) = some s' ∧ s'.OnTrack p i' ∧ i'.callsLeft + 1 = i.callsLeft ∧
          i'.socket = i.socket ∧ i'.controlSocket = i.controlSocket :=
    fun step umask fs hinstance hrunning hbound hcalls => ⟨_, _, hnext.trans hinstance,
      h.advance hrunning hbound umask fs, hcalls, rfl, rfl⟩
  cases hstep : i.step with
  | openLock role =>
    obtain ⟨path, hpath⟩ := hpath role (by rw [hstep]; rfl)
    obtain ⟨file, fs, hopen⟩ := openCreate_succeeds h htidy hexclusive hpath
    refine hgo (.tryLock role file) i.umask fs ?_ (by simp) (by simp) ?_
    · simp only [instanceNext, hstep, hpath, Option.map_some, openLockNext, attempt, hopen]
      rfl
    · simp only [Instance.callsLeft, hstep]
      rfl
  | tryLock role file =>
    obtain ⟨path, hpath⟩ := hpath role (by rw [hstep]; rfl)
    obtain ⟨fs, hlock⟩ := tryLock_succeeds h htidy hexclusive hstep hpath
    refine hgo (i.afterLock role) i.umask fs ?_ ?_ ?_ ?_
    · simp only [instanceNext, hstep, proceed, attempt, hlock]
      rfl
    · rcases i.afterLock_cases role with hafter | hafter <;> simp [hafter]
    · rcases i.afterLock_cases role with hafter | hafter <;> simp [hafter]
    · cases role with
      | policy =>
        simp only [Instance.callsLeft, hstep, Instance.afterLock, Instance.secondLock,
          Instance.secondSocket]
        split_ifs <;> rfl
      | control => simp [Instance.callsLeft, hstep, Instance.afterLock, Instance.secondLock,
          Instance.secondSocket]
  | connectRedis =>
    refine hgo (.connect .policy) i.umask s.fs ?_ (by simp) (by simp) ?_
    · simp only [instanceNext, hstep, proceed, attempt]
      rfl
    · simp only [Instance.callsLeft, hstep]
      rfl
  | connect role =>
    obtain ⟨path, hpath⟩ := hpath role (by rw [hstep]; rfl)
    have haccepts := accepts_eq_none h htidy hstep hpath
    refine hgo (.removeFile role) i.umask s.fs ?_ (by simp) (by simp) ?_
    · simp only [instanceNext, hstep, hpath, Option.map_some, connectNext, haccepts]
      rfl
    · simp only [Instance.callsLeft, hstep]
      rfl
  | removeFile role =>
    obtain ⟨path, hpath⟩ := hpath role (by rw [hstep]; rfl)
    refine hgo (.narrowUmask role) i.umask (s.fs.unlink path) ?_ (by simp) (by simp) ?_
    · simp only [instanceNext, hstep, hpath, Option.map_some, proceed, attempt]
      rfl
    · simp only [Instance.callsLeft, hstep]
      rfl
  | narrowUmask role =>
    refine hgo (.bind role i.umask) socketCreateUmask s.fs ?_ (by simp) (by simp) ?_
    · simp only [instanceNext, hstep]
    · simp only [Instance.callsLeft, hstep]
      rfl
  | bind role previousUmask =>
    obtain ⟨path, hpath⟩ := hpath role (by rw [hstep]; rfl)
    have hfree := htidy.cleared p i role path h.here
      (by rw [hstep]; simp [StartupStep.cleared]) hpath
    obtain ⟨file, fs, hbind⟩ : ∃ file fs,
        s.fs.bind path (p, role) (0o777 &&& ~~~i.umask) = some (file, fs) := by
      unfold FileSystem.bind
      rw [hfree]
      exact ⟨_, _, rfl⟩
    refine hgo (.listen role previousUmask file) i.umask fs ?_ (by simp) (by simp) ?_
    · simp only [instanceNext, hstep, hpath, Option.map_some, bindNext, attempt, hbind]
      rfl
    · simp only [Instance.callsLeft, hstep]
      rfl
  | listen role previousUmask file =>
    obtain ⟨path, hpath⟩ := hpath role (by rw [hstep]; rfl)
    obtain ⟨mode, hcreated⟩ := (hexclusive.standing p i h.here).created role previousUmask file path
      hstep hpath
    obtain ⟨fs, hlisten⟩ : ∃ fs, s.fs.listen file = some fs := ⟨_, listen_eq hcreated⟩
    refine hgo (.restoreUmask role previousUmask true) i.umask fs ?_ (by simp) (by simp) ?_
    · simp only [instanceNext, hstep, hpath, Option.map_some, listenNext, attempt, hlisten]
      rfl
    · simp only [Instance.callsLeft, hstep]
      rfl
  | restoreUmask role previousUmask bound =>
    cases bound with
    | false => exact absurd hstep (h.bound role previousUmask)
    | true =>
      refine hgo (.setPermissions role) previousUmask s.fs ?_ (by simp) (by simp) ?_
      · simp only [instanceNext, hstep]
        rfl
      · simp only [Instance.callsLeft, hstep]
        rfl
  | setPermissions role =>
    obtain ⟨path, hpath⟩ := hpath role (by rw [hstep]; rfl)
    obtain ⟨n, mode, hbound, _⟩ := (hexclusive.standing p i h.here).bound role path hpath
      (by simp [hstep, StartupStep.bound])
    obtain ⟨fs, hchmod⟩ : ∃ fs, s.fs.chmod path role.mode = some fs := ⟨_, chmod_eq hbound⟩
    refine hgo (i.afterBind role) i.umask fs ?_ ?_ ?_ ?_
    · simp only [instanceNext, hstep, hpath, Option.map_some, proceed, attempt, hchmod]
      rfl
    · rcases i.afterBind_cases role with hafter | hafter <;> simp [hafter]
    · rcases i.afterBind_cases role with hafter | hafter <;> simp [hafter]
    · cases role with
      | policy =>
        simp only [Instance.callsLeft, hstep, Instance.afterBind, Instance.secondSocket]
        split_ifs <;> rfl
      | control => simp [Instance.callsLeft, hstep, Instance.afterBind, Instance.secondSocket]
  | serving => exact absurd hstep hserving
  | exited => exact absurd hstep h.running

end GoesOn

/-- Nobody kills the instance, its calls do not fail of their own accord, and nobody else is started
with one of its paths. -/
def leavesAlone (p : ℕ) (s : Host) : Action → Bool
  | .spawn socket controlSocket umask =>
    s.keepsApart (.spawn socket controlSocket umask) &&
      s.instances[p]?.all (fun i => (i.socket :: i.controlSocket.toList).all
        (fun path => !(socket :: controlSocket.toList).contains path))
  | .step q failed => q != p || !failed
  | .kill q => q != p

/-- A call of the instance. -/
def Action.isCall (p : ℕ) : Action → Bool
  | .step q _ => q == p
  | _ => false

theorem keepsApart_of_leavesAlone {a : Action} (h : s.leavesAlone p a) : s.keepsApart a := by
  cases a with
  | spawn socket controlSocket umask => exact (Bool.and_eq_true_iff.mp h).1
  | _ => rfl

/-- Another instance does something. -/
theorem OnTrack.other (h : s.OnTrack p i) {q : ℕ} (hq : q ≠ p) {j j' : Instance}
    (hj : s.instances[q]? = some j) (hinstances : s'.instances = s.instances.set q j')
    (hpath : j'.path = j.path) (hruns : j'.step ≠ .exited → j.step ≠ .exited) : s'.OnTrack p i where
  here := by
    rw [hinstances, List.getElem?_set_ne hq]
    exact h.here
  running := h.running
  bound := h.bound
  distinct := h.distinct
  alone q' k hq' hk hkruns role role' path hmine := by
    rw [hinstances] at hk
    by_cases hsame : q = q'
    · subst hsame
      rw [List.getElem?_set_self (List.getElem?_eq_some_iff.mp hj).1] at hk
      obtain rfl := Option.some.inj hk
      rw [hpath]
      exact h.alone q j hq' hj (hruns hkruns) role role' path hmine
    · rw [List.getElem?_set_ne hsame] at hk
      exact h.alone q' k hq' hk hkruns role role' path hmine

theorem OnTrack.step (h : s.OnTrack p i) (htidy : s.Tidy) (hexclusive : s.Exclusive) {a : Action}
    (hok : s.leavesAlone p a) (hnext : s.next a = some s') : ∃ i', s'.OnTrack p i' ∧
      i'.callsLeft + (if a.isCall p then 1 else 0) = i.callsLeft ∧ i'.socket = i.socket ∧
        i'.controlSocket = i.controlSocket := by
  cases a with
  | spawn socket controlSocket umask =>
    obtain rfl := Option.some.inj hnext
    obtain ⟨_, hnew⟩ := Bool.and_eq_true_iff.mp hok
    rw [h.here] at hnew
    refine ⟨i, ⟨?_, h.running, h.bound, h.distinct, ?_⟩, rfl, rfl, rfl⟩
    · exact (List.getElem?_append_left (List.getElem?_eq_some_iff.mp h.here).1).trans h.here
    · intro q j hq hj hruns role role' path hpath hpath'
      rw [List.getElem?_append] at hj
      split_ifs at hj
      · exact h.alone q j hq hj hruns role role' path hpath hpath'
      · obtain rfl := List.mem_singleton.mp (List.mem_of_getElem? hj)
        have hother := List.all_eq_true.mp hnew path (mem_paths hpath)
        have hmem := mem_paths hpath'
        simp only [Bool.not_eq_true', List.contains_eq_mem, decide_eq_false_iff_not] at hother
        exact hother hmem
  | step q failed =>
    obtain ⟨j, hj, hstep⟩ := Option.bind_eq_some_iff.mp hnext
    by_cases hq : q = p
    · subst hq
      obtain rfl : failed = false := by simpa [leavesAlone] using hok
      have hserving : i.step ≠ .serving := by
        intro hserving
        obtain rfl := Option.some.inj (h.here.symm.trans hj)
        simp [instanceNext, hserving] at hstep
      obtain ⟨s'', i', hnext', htrack, hcalls, hsocket, hcontrol⟩ :=
        h.goes_on htidy hexclusive hserving
      obtain rfl := Option.some.inj (hnext.symm.trans hnext')
      exact ⟨i', htrack, by simpa [Action.isCall] using hcalls, hsocket, hcontrol⟩
    · obtain ⟨j', hstepped⟩ := instanceNext_stepped hexclusive hj hstep
      refine ⟨i, h.other hq hj hstepped.instances hstepped.path ?_, ?_, rfl, rfl⟩
      · intro _ hexited
        simp [instanceNext, hexited] at hstep
      · simp [Action.isCall, hq]
  | kill q =>
    obtain ⟨j, hj, rfl⟩ := Option.map_eq_some_iff.mp hnext
    have hq : q ≠ p := by simpa [leavesAlone] using hok
    exact ⟨i, h.other hq (Option.filter_eq_some_iff.mp hj).1 rfl rfl
      (fun hruns => absurd rfl hruns),
      rfl, rfl, rfl⟩

/-! ## Runs -/

/-- What the instance has left to call, and what it has called, are what it had left. -/
theorem OnTrack.reached (h : s.OnTrack p i) (htidy : s.Tidy) (hexclusive : s.Exclusive) {t : Host}
    {log : List Action}
    (hrun : Reachable (recording next (fun _ a => if a.isCall p then [a] else []))
      (fun x a => x.1.leavesAlone p a) (s, []) (t, log)) :
    t.Exclusive ∧ t.Tidy ∧ ∃ i', t.OnTrack p i' ∧ log.length + i'.callsLeft = i.callsLeft ∧
      i'.socket = i.socket ∧ i'.controlSocket = i.controlSocket := by
  refine @Reachable.invariant _ _ _ _ _ _ (fun x => x.1.Exclusive ∧ x.1.Tidy ∧ ∃ i',
    x.1.OnTrack p i' ∧ x.2.length + i'.callsLeft = i.callsLeft ∧ i'.socket = i.socket ∧
      i'.controlSocket = i.controlSocket) ?_ ?_ hrun
  · exact ⟨hexclusive, htidy, i, h, Nat.zero_add _, rfl, rfl⟩
  · rintro x a x' ⟨hexclusive, htidy, i', htrack, hleft, hsocket, hcontrol⟩ hok hnext
    obtain ⟨hstep, hseen⟩ := recording_eq_some hnext
    obtain ⟨i'', htrack', hcalls, hsocket', hcontrol'⟩ := htrack.step htidy hexclusive hok hstep
    refine ⟨hexclusive.step (keepsApart_of_leavesAlone hok) hstep, htidy.step hexclusive hstep, i'',
      htrack', ?_, hsocket'.trans hsocket, hcontrol'.trans hcontrol⟩
    have hlog : x'.2.length = (if a.isCall p then 1 else 0) + x.2.length := by
      rw [hseen, List.length_append]
      split_ifs <;> rfl
    omega

end Host
end PostfixRatelimitd
