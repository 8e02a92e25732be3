import Formula.Store.Route

/-!
# Directories and files

A tree of directories and files, in which a file holds something of a type of its own. An operation
follows a written path through the directories that are there, and either succeeds or says why it
does not. What it had made until then stays.

## Main definitions

* `Path`: where something lies.
* `Store`: directories and files by their paths.
* `Store.walk`, `Store.locate`: where a written path leads.
* `Store.makeDirectory`, `Store.makeDirectories`, `Store.write`, `Store.read`, `Store.delete`,
  `Store.names`: the operations.

## Main results

* `Store.node?_set`, `Store.node?_remove_ne`, `Store.node?_remove_self`: what lies where after a
  change.
* `Store.walk_append`: steps are taken one after the other.
-/

namespace Formula

/-- Where something lies: the names of the directories on the way from the root, and its own. -/
abbrev Path := List String

/-- How many bytes a name in a directory may have. -/
def maxNameBytes : Nat := 255

/-- What lies at a path. -/
inductive Node (γ : Type) where
  | directory
  | file (contents : γ)

/-- What lies at paths other than that of the root, which is a directory. -/
structure Store (γ : Type) where
  nodes : List (Path × Node γ) := []
  /-- The directory in which written paths begin that do not begin at the root. -/
  working : Path := []

namespace Store

variable {γ : Type}

/-- What lies at a path. -/
def node? (s : Store γ) (path : Path) : Option (Node γ) :=
  if path = [] then some .directory else (s.nodes.find? (·.1 = path)).map (·.2)

/-- Puts something at a path, in place of what lies there. -/
def set (s : Store γ) (path : Path) (n : Node γ) : Store γ :=
  { s with nodes := (path, n) :: s.nodes.filter (·.1 ≠ path) }

/-- Takes away what lies at a path. -/
def remove (s : Store γ) (path : Path) : Store γ :=
  { s with nodes := s.nodes.filter (·.1 ≠ path) }

/-- Whether a directory lies at a path. -/
def isDirectory (s : Store γ) (path : Path) : Bool :=
  match s.node? path with
  | some .directory => true
  | _ => false

/-- The failure that a name brings about, whatever lies there. -/
def nameFailure? (name : String) : Option FileFailure :=
  if maxNameBytes < name.utf8ByteSize then some .nameTooLong else none

/-- Where one step leads. It is taken in a directory, and to something that is there. -/
def step (s : Store γ) (place : Path) (step : PathStep) : Except FileFailure Path :=
  if s.isDirectory place then
    match step with
    | .empty | .here => .ok place
    | .above => .ok place.dropLast
    | .enter name =>
      match nameFailure? name, s.node? (place ++ [name]) with
      | some e, _ => .error e
      | none, none => .error .notFound
      | none, some _ => .ok (place ++ [name])
  else .error .notDirectory

/-- Where steps lead, one after the other. -/
def walk (s : Store γ) (place : Path) : List PathStep → Except FileFailure Path
  | [] => .ok place
  | first :: steps =>
    match s.step place first with
    | .error e => .error e
    | .ok next => s.walk next steps

/-- Where a written path begins. -/
def start (s : Store γ) (r : Route) : Path :=
  if r.fromRoot then [] else s.working

/-- Where a written path leads. There has to be something. -/
def locate (s : Store γ) (r : Route) : Except FileFailure Path :=
  match r.failure? with
  | some e => .error e
  | none => if r.isEmpty then .error .notFound else s.walk (s.start r) r.steps

/-- What lies where a written path leads. -/
def find? (s : Store γ) (r : Route) : Option (Node γ) :=
  match s.locate r with
  | .ok path => s.node? path
  | .error _ => none

/-- Whether a written path leads to a directory. -/
def isDirectoryAt (s : Store γ) (r : Route) : Bool :=
  match s.find? r with
  | some .directory => true
  | _ => false

/-- The directory in which the last step of a written path is taken, and that step. -/
def approach (s : Store γ) (r : Route) : Except FileFailure (Path × PathStep) :=
  match r.steps.getLast? with
  | none => .error .notFound
  | some last =>
    match s.walk (s.start r) r.steps.dropLast with
    | .error e => .error e
    | .ok place => if s.isDirectory place then .ok (place, last) else .error .notDirectory

/-- Makes a directory where there is nothing. Slashes at the end of its path do not count. -/
def makeDirectory (s : Store γ) (r : Route) : Except FileFailure (Store γ) :=
  match r.failure?, s.approach r.withoutSlashes with
  | some e, _ => .error e
  | none, .error e => .error (if r.fromRoot && r.withoutSlashes.steps.isEmpty then .exists else e)
  | none, .ok (place, .enter name) =>
    match nameFailure? name, s.node? (place ++ [name]) with
    | some e, _ => .error e
    | none, some _ => .error .exists
    | none, none => .ok (s.set (place ++ [name]) .directory)
  | none, .ok _ => .error .exists

/-- Makes a directory, unless there is one. -/
def ensureDirectory (s : Store γ) (r : Route) : Except FileFailure Unit × Store γ :=
  match s.makeDirectory r with
  | .ok s' => (.ok (), s')
  | .error e => (if s.isDirectoryAt r then .ok () else .error e, s)

/-- Makes the first of some directories, each of which lies in the next one, and before it those of
the others that it lacks. -/
def ensureChain (s : Store γ) : List Route → Except FileFailure Unit × Store γ
  | [] => (.ok (), s)
  | r :: parents =>
    match s.makeDirectory r with
    | .error .notFound =>
      match s.ensureChain parents with
      | (.ok (), s') => s'.ensureDirectory r
      | failed => failed
    | _ => s.ensureDirectory r

/-- Makes a directory and those on the way to it, as far as they are not there. -/
def makeDirectories (s : Store γ) (r : Route) : Except FileFailure Unit × Store γ :=
  if r.isEmpty then (.ok (), s) else s.ensureChain (r :: r.parents)

/-- Writes a file in a directory that is there. -/
def write (s : Store γ) (r : Route) (contents : γ) : Except FileFailure (Store γ) :=
  match r.failure?, s.approach r with
  | some e, _ | none, .error e => .error e
  | none, .ok (place, .enter name) =>
    match nameFailure? name, s.node? (place ++ [name]) with
    | some e, _ => .error e
    | none, some .directory => .error .isDirectory
    | none, _ => .ok (s.set (place ++ [name]) (.file contents))
  | none, .ok _ => .error .isDirectory

/-- Reads a file. -/
def read (s : Store γ) (r : Route) : Except FileFailure γ :=
  match s.locate r with
  | .error e => .error e
  | .ok path =>
    match s.node? path with
    | some (.file contents) => .ok contents
    | some .directory => .error .isDirectory
    | none => .error .notFound

/-- Takes away a file. -/
def delete (s : Store γ) (r : Route) : Except FileFailure (Store γ) :=
  match s.locate r with
  | .error e => .error e
  | .ok path => if s.isDirectory path then .error .isDirectory else .ok (s.remove path)

/-- The names of what lies in a directory. -/
def names (s : Store γ) (r : Route) : Except FileFailure (List String) :=
  match s.locate r with
  | .error e => .error e
  | .ok path =>
    if s.isDirectory path then
      .ok (s.nodes.filterMap fun (p, _) => if p.dropLast = path then p.getLast? else none)
    else .error .notDirectory

theorem walk_append (s : Store γ) (place : Path) (steps more : List PathStep) :
    s.walk place (steps ++ more) =
      (match s.walk place steps with
        | .error e => .error e
        | .ok next => s.walk next more) := by
  induction steps generalizing place with
  | nil => rfl
  | cons first steps ih =>
    simp only [List.cons_append, walk]
    split
    · rfl
    · exact ih _

theorem find?_filter_ne {nodes : List (Path × Node γ)} {path other : Path} (h : other ≠ path) :
    (nodes.filter (·.1 ≠ path)).find? (·.1 = other) = nodes.find? (·.1 = other) := by
  induction nodes with
  | nil => rfl
  | cons entry nodes ih =>
    by_cases hp : entry.1 = path
    · have : entry.1 ≠ other := fun he => h (he.symm.trans hp)
      simpa [hp, this, List.find?_cons, Ne.symm h] using ih
    · simp only [ne_eq, hp, not_false_eq_true, decide_true, List.filter_cons_of_pos,
        List.find?_cons]
      simp only [ne_eq, decide_not] at ih
      simp [ih]

theorem node?_remove_ne {s : Store γ} {path other : Path} (h : other ≠ path) :
    (s.remove path).node? other = s.node? other := by
  simp only [node?, remove, find?_filter_ne h]

theorem node?_remove_self {s : Store γ} {path : Path} (h : path ≠ []) :
    (s.remove path).node? path = none := by
  simp [node?, remove, h]

theorem node?_set {s : Store γ} {path : Path} (h : path ≠ []) (n : Node γ) (other : Path) :
    (s.set path n).node? other = if other = path then some n else s.node? other := by
  by_cases he : other = path
  · simp [node?, set, he, h]
  · simp only [node?, set, if_neg he]
    rw [List.find?_cons_of_neg (by simpa using Ne.symm he), find?_filter_ne he]

end Store

end Formula
