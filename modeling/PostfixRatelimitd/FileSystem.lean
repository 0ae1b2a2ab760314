import Mathlib.Data.List.Basic
import Mathlib.Logic.Function.Basic
import Mathlib.Tactic.SplitIfs

/-!
# Files, advisory locks and sockets

Names refer to nodes, and a node outlives its name. A lock belongs to an open file and so to the
node; a socket belongs to what bound it. Owners are of any type. `Keeps` says what a call of one
owner leaves of everything else, so that what is known of the others' files is carried over any
number of calls.
-/
namespace PostfixRatelimitd

variable {κ : Type*}

inductive Node (κ : Type*)
  /-- a file, with the holder of its lock -/
  | regular (holder : Option κ)
  /-- a socket, with what bound it; left over if nothing that runs did -/
  | socket (owner : Option κ) (listening : Bool) (mode : UInt32)
  deriving DecidableEq, Repr

structure FileSystem (κ : Type*) where
  files : String → Option ℕ
  nodes : List (Node κ)

namespace FileSystem
variable {fs fs' : FileSystem κ} {path : String} {n : ℕ} {key : κ} {node : Node κ}

/-- The name refers to this node. -/
structure At (fs : FileSystem κ) (path : String) (n : ℕ) (node : Node κ) : Prop where
  file : fs.files path = some n
  node : fs.nodes[n]? = some node

/-- What the name refers to. -/
def node? (fs : FileSystem κ) (path : String) : Option (Node κ) :=
  (fs.files path).bind (fun n => fs.nodes[n]?)

theorem At.node?_eq (h : fs.At path n node) : fs.node? path = some node := by
  unfold node?
  rw [h.file, Option.bind_some, h.node]

theorem At.unique {n' : ℕ} {node' : Node κ} (h : fs.At path n node) (h' : fs.At path n' node') :
    n = n' ∧ node = node' := by
  obtain rfl : n = n' := Option.some.inj (h.file.symm.trans h'.file)
  exact ⟨rfl, Option.some.inj (h.node.symm.trans h'.node)⟩

/-! ## Calls -/

/-- A new node under a name. -/
def create (fs : FileSystem κ) (path : String) (node : Node κ) : FileSystem κ where
  files := Function.update fs.files path (some fs.nodes.length)
  nodes := fs.nodes ++ [node]

/-- Open a file for writing, and create it where there is none. -/
def openCreate (fs : FileSystem κ) (path : String) : Option (ℕ × FileSystem κ) :=
  match fs.files path with
  | none => some (fs.nodes.length, fs.create path (.regular none))
  | some n =>
    match fs.nodes[n]? with
    | some (.regular _) => some (n, fs)
    | _ => none

/-- Lock an open file, if nobody holds its lock. -/
def tryLock (fs : FileSystem κ) (n : ℕ) (key : κ) : Option (FileSystem κ) :=
  match fs.nodes[n]? with
  | some (.regular none) => some { fs with nodes := fs.nodes.set n (.regular (some key)) }
  | _ => none

def unlink (fs : FileSystem κ) (path : String) : FileSystem κ :=
  { fs with files := Function.update fs.files path none }

/-- Bind a socket under a name that is not taken. -/
def bind (fs : FileSystem κ) (path : String) (key : κ) (mode : UInt32) :
    Option (ℕ × FileSystem κ) :=
  match fs.files path with
  | none => some (fs.nodes.length, fs.create path (.socket (some key) false mode))
  | some _ => none

def listen (fs : FileSystem κ) (n : ℕ) : Option (FileSystem κ) :=
  match fs.nodes[n]? with
  | some (.socket owner _ mode) =>
    some { fs with nodes := fs.nodes.set n (.socket owner true mode) }
  | _ => none

/-- Change the mode of what a name refers to; that of a file plays no part. -/
def chmod (fs : FileSystem κ) (path : String) (mode : UInt32) : Option (FileSystem κ) :=
  match fs.files path with
  | none => none
  | some n =>
    match fs.nodes[n]? with
    | some (.socket owner listening _) =>
      some { fs with nodes := fs.nodes.set n (.socket owner listening mode) }
    | _ => some fs

def Node.release (gone : κ → Bool) : Node κ → Node κ
  | .regular holder => .regular (holder.filter (fun key => !gone key))
  | node => node

/-- Locks are released when their holders are gone; sockets stay. -/
def release (fs : FileSystem κ) (gone : κ → Bool) : FileSystem κ :=
  { fs with nodes := fs.nodes.map (Node.release gone) }

/-! ## What a call leaves alone -/

/-- Under every name but those that are gone, a file stays the file, its lock stays with a holder
that did not release it, and a socket stays as it is but for those whose owner changed it. -/
structure Keeps (gone : String → Prop) (released changed : κ → Prop) (fs fs' : FileSystem κ) :
    Prop where
  regular : ∀ {path n holder}, ¬gone path → fs.At path n (.regular holder) →
    ∃ holder', fs'.At path n (.regular holder') ∧
      ∀ key, holder = some key → ¬released key → holder' = some key
  socket : ∀ {path n key listening mode}, ¬gone path → ¬changed key →
    fs.At path n (.socket (some key) listening mode) →
      fs'.At path n (.socket (some key) listening mode)

section Keeps
variable {gone : String → Prop} {released changed : κ → Prop}

theorem Keeps.locked (h : Keeps gone released changed fs fs') (hpath : ¬gone path)
    (hkey : ¬released key) (hat : fs.At path n (.regular (some key))) :
    fs'.At path n (.regular (some key)) := by
  obtain ⟨holder', hat', hholder⟩ := h.regular hpath hat
  rw [hholder key rfl hkey] at hat'
  exact hat'

/-- Nothing that is there before is changed. -/
theorem Keeps.of_at (h : ∀ {path n node}, ¬gone path → fs.At path n node → fs'.At path n node) :
    Keeps gone released changed fs fs' where
  regular hpath hat := ⟨_, h hpath hat, fun _ hkey _ => hkey⟩
  socket hpath _ hat := h hpath hat

theorem Keeps.refl (gone : String → Prop) (released changed : κ → Prop) (fs : FileSystem κ) :
    Keeps gone released changed fs fs :=
  .of_at (fun _ hat => hat)

theorem At.create {path' : String} {new : Node κ} (h : fs.At path n node)
    (hfree : fs.files path' = none) : (fs.create path' new).At path n node := by
  have hne : path ≠ path' := by
    rintro rfl
    simpa using hfree.symm.trans h.file
  refine ⟨(Function.update_of_ne hne _ _).trans h.file, ?_⟩
  show (fs.nodes ++ [new])[n]? = some node
  rw [List.getElem?_append_left (List.getElem?_eq_some_iff.mp h.node).1, h.node]

theorem create_at (fs : FileSystem κ) (path : String) (new : Node κ) :
    (fs.create path new).At path fs.nodes.length new :=
  ⟨Function.update_self _ _ _, List.getElem?_concat_length⟩

theorem keeps_create {new : Node κ} (hfree : fs.files path = none) :
    Keeps gone released changed fs (fs.create path new) :=
  .of_at (fun _ hat => hat.create hfree)

theorem openCreate_cases (hopen : fs.openCreate path = some (n, fs')) :
    (fs.files path = none ∧ n = fs.nodes.length ∧ fs' = fs.create path (.regular none)) ∨
      ∃ holder, fs.At path n (.regular holder) ∧ fs' = fs := by
  unfold openCreate at hopen
  cases hfile : fs.files path with
  | none =>
    rw [hfile] at hopen
    obtain ⟨rfl, rfl⟩ := Prod.mk.inj (Option.some.inj hopen)
    exact .inl ⟨rfl, rfl, rfl⟩
  | some m =>
    simp only [hfile] at hopen
    split at hopen
    · rename_i holder hnode
      obtain ⟨rfl, rfl⟩ := Prod.mk.inj (Option.some.inj hopen)
      exact .inr ⟨holder, ⟨hfile, hnode⟩, rfl⟩
    · cases hopen

theorem openCreate_at (hopen : fs.openCreate path = some (n, fs')) :
    ∃ holder, fs'.At path n (.regular holder) := by
  rcases openCreate_cases hopen with ⟨_, rfl, rfl⟩ | ⟨holder, hat, rfl⟩
  · exact ⟨none, fs.create_at path _⟩
  · exact ⟨holder, hat⟩

theorem keeps_openCreate (hopen : fs.openCreate path = some (n, fs')) :
    Keeps gone released changed fs fs' := by
  rcases openCreate_cases hopen with ⟨hfree, _, rfl⟩ | ⟨_, _, rfl⟩
  · exact keeps_create hfree
  · exact .refl _ _ _ _

/-- A node is replaced, and seen under its name. -/
theorem at_set {path' : String} {m : ℕ} {old : Node κ} (new : Node κ)
    (hold : fs.nodes[m]? = some old) (hat : fs.At path' n node) :
    ({ fs with nodes := fs.nodes.set m new } : FileSystem κ).At path' n
      (if m = n then new else node) := by
  refine ⟨hat.file, ?_⟩
  show (fs.nodes.set m new)[n]? = _
  split_ifs with hm
  · subst hm
    exact List.getElem?_set_self (List.getElem?_eq_some_iff.mp hold).1
  · rw [List.getElem?_set_ne hm, hat.node]

theorem tryLock_eq_some (hlock : fs.tryLock n key = some fs') :
    fs.nodes[n]? = some (.regular none) ∧
    fs' = { fs with nodes := fs.nodes.set n (.regular (some key)) } := by
  unfold tryLock at hlock
  split at hlock
  · rename_i hnode
    exact ⟨hnode, (Option.some.inj hlock).symm⟩
  · cases hlock

theorem tryLock_at {holder : Option κ} (hlock : fs.tryLock n key = some fs')
    (hat : fs.At path n (.regular holder)) : fs'.At path n (.regular (some key)) := by
  obtain ⟨hnode, rfl⟩ := tryLock_eq_some hlock
  have hset := at_set (.regular (some key)) hnode hat
  rwa [if_pos rfl] at hset

theorem keeps_tryLock (hlock : fs.tryLock n key = some fs') :
    Keeps gone released changed fs fs' := by
  obtain ⟨hnode, rfl⟩ := tryLock_eq_some hlock
  constructor
  · intro path m holder _ hat
    have hset := at_set (.regular (some key)) hnode hat
    by_cases hm : n = m
    · subst hm
      obtain rfl : holder = none := by simpa using hat.node.symm.trans hnode
      rw [if_pos rfl] at hset
      exact ⟨_, hset, fun _ hkey => by cases hkey⟩
    · rw [if_neg hm] at hset
      exact ⟨_, hset, fun _ hkey _ => hkey⟩
  · intro path m other listening mode _ _ hat
    have hset := at_set (.regular (some key)) hnode hat
    have hm : n ≠ m := by
      rintro rfl
      simpa using hat.node.symm.trans hnode
    rwa [if_neg hm] at hset

theorem keeps_unlink (hgone : gone path) : Keeps gone released changed fs (fs.unlink path) :=
  .of_at (fun {path'} _ _ hpath hat => by
    have hne : path' ≠ path := by
      rintro rfl
      exact hpath hgone
    exact ⟨(Function.update_of_ne hne _ _).trans hat.file, hat.node⟩)

theorem bind_eq_some {mode : UInt32} (hbind : fs.bind path key mode = some (n, fs')) :
    fs.files path = none ∧ n = fs.nodes.length ∧
      fs' = fs.create path (.socket (some key) false mode) := by
  unfold bind at hbind
  cases hfile : fs.files path with
  | none =>
    rw [hfile] at hbind
    obtain ⟨rfl, rfl⟩ := Prod.mk.inj (Option.some.inj hbind)
    exact ⟨rfl, rfl, rfl⟩
  | some m =>
    rw [hfile] at hbind
    cases hbind

theorem bind_at {mode : UInt32} (hbind : fs.bind path key mode = some (n, fs')) :
    fs'.At path n (.socket (some key) false mode) := by
  obtain ⟨_, rfl, rfl⟩ := bind_eq_some hbind
  exact fs.create_at path _

theorem keeps_bind {mode : UInt32} (hbind : fs.bind path key mode = some (n, fs')) :
    Keeps gone released changed fs fs' := by
  obtain ⟨hfree, _, rfl⟩ := bind_eq_some hbind
  exact keeps_create hfree

/-- A socket is replaced by one of the same owner. -/
theorem keeps_set_socket {owner : Option κ} {listening listening' : Bool} {mode mode' : UInt32}
    (hnode : fs.nodes[n]? = some (.socket owner listening mode))
    (hchanged : ∀ key, owner = some key → changed key) : Keeps gone released changed fs
      { fs with nodes := fs.nodes.set n (.socket owner listening' mode') } := by
  constructor
  · intro path m holder _ hat
    have hset := at_set (.socket owner listening' mode') hnode hat
    have hm : n ≠ m := by
      rintro rfl
      simpa using hat.node.symm.trans hnode
    rw [if_neg hm] at hset
    exact ⟨_, hset, fun _ hkey _ => hkey⟩
  · intro path m other listening mode _ hother hat
    have hset := at_set (.socket owner listening' mode') hnode hat
    have hm : n ≠ m := by
      rintro rfl
      have hsame := hat.node.symm.trans hnode
      simp only [Option.some.injEq, Node.socket.injEq] at hsame
      exact hother (hchanged other hsame.1.symm)
    rwa [if_neg hm] at hset

theorem listen_eq {mode : UInt32} {listening : Bool}
    (hat : fs.At path n (.socket (some key) listening mode)) : fs.listen n =
      some { fs with nodes := fs.nodes.set n (.socket (some key) true mode) } := by
  unfold listen
  rw [hat.node]

theorem chmod_eq {mode mode' : UInt32} {listening : Bool}
    (hat : fs.At path n (.socket (some key) listening mode)) : fs.chmod path mode' =
      some { fs with nodes := fs.nodes.set n (.socket (some key) listening mode') } := by
  unfold chmod
  simp only [hat.file, hat.node]

theorem keeps_release {dead : κ → Bool} :
    Keeps gone (fun key => dead key) changed fs (fs.release dead) := by
  have hnode : ∀ {n : ℕ} {node : Node κ}, fs.nodes[n]? = some node →
      (fs.release dead).nodes[n]? = some (Node.release dead node) := by
    intro n node h
    show (fs.nodes.map _)[n]? = _
    rw [List.getElem?_map, h]
    rfl
  constructor
  · intro path n holder _ hat
    refine ⟨_, ⟨hat.file, hnode hat.node⟩, ?_⟩
    rintro key rfl hkey
    simpa [Option.filter] using hkey
  · intro path n key listening mode _ _ hat
    exact ⟨hat.file, hnode hat.node⟩

end Keeps

/-! ## What was there before a call -/

/-- No node has two names, and each name has a node. -/
structure Linked (fs : FileSystem κ) : Prop where
  inRange : ∀ {path n}, fs.files path = some n → n < fs.nodes.length
  unique : ∀ {path path' n}, fs.files path = some n → fs.files path' = some n → path = path'

theorem Linked.create (h : fs.Linked) (path : String) (new : Node κ) :
    (fs.create path new).Linked where
  inRange {path' n} hfile := by
    have hlength : (fs.create path new).nodes.length = fs.nodes.length + 1 := List.length_append
    rw [hlength]
    change Function.update fs.files path (some fs.nodes.length) path' = some n at hfile
    rw [Function.update_apply] at hfile
    split_ifs at hfile
    · exact Option.some.inj hfile ▸ Nat.lt_succ_self _
    · exact Nat.lt_succ_of_lt (h.inRange hfile)
  unique {a b n} ha hb := by
    change Function.update fs.files path (some fs.nodes.length) a = some n at ha
    change Function.update fs.files path (some fs.nodes.length) b = some n at hb
    simp only [Function.update_apply] at ha hb
    split_ifs at ha hb with ha' hb' hb'
    · rw [ha', hb']
    · obtain rfl := Option.some.inj ha
      exact absurd (h.inRange hb) (Nat.lt_irrefl _)
    · obtain rfl := Option.some.inj hb
      exact absurd (h.inRange ha) (Nat.lt_irrefl _)
    · exact h.unique ha hb

theorem Linked.unlink (h : fs.Linked) (path : String) : (fs.unlink path).Linked := by
  have hfile : ∀ {path' n}, (fs.unlink path).files path' = some n → fs.files path' = some n := by
    intro path' n hfile
    change Function.update fs.files path none path' = some n at hfile
    rw [Function.update_apply] at hfile
    split_ifs at hfile
    exact hfile
  exact ⟨fun h' => h.inRange (hfile h'), fun ha hb => h.unique (hfile ha) (hfile hb)⟩

/-- The names stay, and so does the number of nodes. -/
theorem Linked.of_nodes (h : fs.Linked) {nodes : List (Node κ)}
    (hlength : nodes.length = fs.nodes.length) : Linked { fs with nodes := nodes } where
  inRange hfile := hlength ▸ h.inRange hfile
  unique := h.unique

theorem At.of_create {new : Node κ} {path' : String} (h : fs.Linked)
    (hat : (fs.create path' new).At path n node) :
    fs.At path n node ∨ (path = path' ∧ node = new) := by
  by_cases hpath : path = path'
  · subst hpath
    exact .inr ⟨rfl, (hat.unique (fs.create_at path new)).2⟩
  · have hfile : fs.files path = some n := (Function.update_of_ne hpath _ _).symm.trans hat.file
    have hnode : (fs.nodes ++ [new])[n]? = some node := hat.node
    rw [List.getElem?_append_left (h.inRange hfile)] at hnode
    exact .inl ⟨hfile, hnode⟩

theorem At.of_set {m : ℕ} {new : Node κ}
    (hat : ({ fs with nodes := fs.nodes.set m new } : FileSystem κ).At path n node) :
    fs.At path n node ∨ (fs.files path = some m ∧ node = new) := by
  by_cases hm : m = n
  · subst hm
    have hnode : (fs.nodes.set m new)[m]? = some node := hat.node
    have hlength : m < fs.nodes.length := by
      simpa using (List.getElem?_eq_some_iff.mp hnode).1
    rw [List.getElem?_set_self hlength] at hnode
    exact .inr ⟨hat.file, (Option.some.inj hnode).symm⟩
  · have hnode : (fs.nodes.set m new)[n]? = some node := hat.node
    rw [List.getElem?_set_ne hm] at hnode
    exact .inl ⟨hat.file, hnode⟩

theorem At.of_unlink {path' : String} (hat : (fs.unlink path').At path n node) :
    fs.At path n node := by
  have hfile : Function.update fs.files path' none path = some n := hat.file
  rw [Function.update_apply] at hfile
  split_ifs at hfile
  exact ⟨hfile, hat.node⟩

theorem At.of_release {gone : κ → Bool} (hat : (fs.release gone).At path n node) :
    ∃ node', fs.At path n node' ∧ node = Node.release gone node' := by
  have hnode : (fs.nodes.map (Node.release gone))[n]? = some node := hat.node
  rw [List.getElem?_map] at hnode
  obtain ⟨node', hnode', rfl⟩ := Option.map_eq_some_iff.mp hnode
  exact ⟨node', ⟨hat.file, hnode'⟩, rfl⟩

end FileSystem
end PostfixRatelimitd
