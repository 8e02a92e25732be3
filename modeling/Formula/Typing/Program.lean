import Formula.Typing.Check

/-!
# Typing programs

The names of a program are declared first, then its variables are checked in order, and then the
bodies of its functions, which may refer to all of them. The entry function takes no arguments;
its result type is inferred if it is not written.

## Main definitions

* `TypeInfo`: what a run needs to know of the types.
* `Program.check`: the types of a program.
-/

namespace Formula

/-- What a run needs to know of the types of a program. -/
structure TypeInfo where
  /-- The result type of the entry function. -/
  result : Ty
  /-- The places that are computed as integers and become floating-point numbers. -/
  floats : List Span
deriving Repr, DecidableEq

namespace TypeInfo

/-- Whether an integer that is computed at a place becomes a floating-point number. -/
def isFloat (t : TypeInfo) (span : Span) : Bool :=
  t.floats.contains span

end TypeInfo

/-- The scopes outside of all functions: predeclared names, and a package scope without names. -/
def universeScopes : Scoped Ty :=
  Scoped.push [Builtin.all.foldl (fun b f => b.set f.name (.builtin f)) []]

/-- Declares the imported packages; `taken` are the names in use. -/
def checkImports (taken : List String) (scopes : Scoped Ty) :
    List ImportDecl → Except TypeError (List String × Scoped Ty)
  | [] => .ok (taken, scopes)
  | i :: imports =>
    if i.path ∉ Package.paths then .error ⟨.unknownPackage i.path, some i.span⟩
    else if i.binding ∈ taken then .error ⟨.redeclared i.binding, some i.span⟩
    else
      checkImports (i.binding :: taken) (scopes.declare i.binding (.package i.path)) imports

/-- Declares the package-level functions other than the entry function, and sees that no name is
declared twice; `taken` are the names in use. -/
def checkNames (entryPoint : String) (taken : List String) (scopes : Scoped Ty) :
    List Item → Except TypeError (Scoped Ty)
  | [] => .ok scopes
  | i :: items =>
    if i.name ∈ taken then .error ⟨.redeclared i.name, some i.span⟩
    else match i with
      | .var _ => checkNames entryPoint (i.name :: taken) scopes items
      | .function d =>
        if d.name = entryPoint then checkNames entryPoint (i.name :: taken) scopes items
        else match functionType d.params d.result with
          | .error u => .error (.ofUnknownType u)
          | .ok t => checkNames entryPoint (i.name :: taken) (scopes.declare d.name t) items

/-- Checks package-level variables in order and declares each behind its own declaration. -/
def checkVars (scopes : Scoped Ty) : List VarDecl → Check (Scoped Ty)
  | [] => return scopes
  | d :: vars => do
    let t ← match d.value with
      | some value => initialisedType d.type value (checkExpr scopes value)
      | none => uninitialisedType d.type d.span
    checkVars (scopes.declare d.name t) vars

/-- The one type of the results of an entry function. Integers become floating-point numbers if
some results are such numbers and all others are untyped constants. -/
def unifyResults (name : String) (span : Span) (results : List InferredResult) : Check Ty :=
  match results with
  | [] => .fail span .missingReturn
  | first :: _ =>
    match results.find? (·.type ≠ first.type) with
    | none => return first.type
    | some other => do
      let widens := results.all fun r =>
        r.type = .float || (r.type = .int && !r.constants.isEmpty)
      if !widens then Check.fail other.span (.differentResults name first.type other.type)
      Check.mark ((results.filter (·.type = .int)).flatMap (·.constants))
      return .float

/-- Checks the entry function and gives its result type. -/
def checkEntry (scopes : Scoped Ty) (d : FunctionDecl) : Check Ty := do
  match d.params with
  | p :: _ => Check.fail p.span (.entryArguments d.name)
  | [] =>
    match d.result with
    | some e =>
      let t ← Check.resolved e.resolve
      checkFunction (some t) scopes [] d.body
      return t
    | none =>
      checkFunction none scopes [] d.body
      unifyResults d.name d.span (← get).results.reverse

/-- Checks the bodies of package-level functions; the result type of the entry function is `entry`
if it was checked before. -/
def checkFunctions (entryPoint : String) (scopes : Scoped Ty) (entry : Option Ty) :
    List FunctionDecl → Check (Option Ty)
  | [] => return entry
  | d :: functions => do
    if d.name = entryPoint then
      let t ← checkEntry scopes d
      checkFunctions entryPoint scopes (some t) functions
    else
      let result ← Check.resolved (resultType d.result)
      checkFunction (some result) scopes d.params d.body
      checkFunctions entryPoint scopes entry functions

/-- Checks a program whose names are declared. -/
def checkBodies (p : Program) (entryPoint : String) (scopes : Scoped Ty) : Check (Option Ty) := do
  let scopes ← checkVars scopes p.vars
  if !(p.functions.any (·.name == entryPoint)) then
    throw ⟨.noEntryPoint entryPoint, none⟩
  checkFunctions entryPoint scopes none p.functions

/-- The types of a program with the given entry function. -/
def Program.check (p : Program) (entryPoint : String) : Except TypeError TypeInfo := do
  let (taken, scopes) ← checkImports [] universeScopes p.imports
  let scopes ← checkNames entryPoint taken scopes p.items
  let (entry, notes) ← (checkBodies p entryPoint scopes).run {}
  match entry with
  | some result => return ⟨result, notes.floats⟩
  | none => throw ⟨.noEntryPoint entryPoint, none⟩

end Formula
