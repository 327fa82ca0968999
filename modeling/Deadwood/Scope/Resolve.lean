import Deadwood.Scope.Walk

/-!
# Name resolution

Resolution goes through a program twice: once to find its scopes and the names they declare, numbering
identifiers and declarators on the way, and once to bind every reference to a declaration.
-/

namespace Deadwood

/-! ### Declarations -/

namespace Hoist

structure State where
  scopes : Array Scope
  bindings : Array Binding
  /-- The binding declared at each site; site zero is taken by nothing. -/
  decls : Array (Option BindingId)
  /-- The marks of the scopes around the place reached, innermost first. -/
  path : List Mark
  container : Option Container
deriving Inhabited

def State.start : State where
  scopes := #[]
  bindings := #[]
  decls := #[none]
  path := []
  container := none

/-- A site that nothing has yet. -/
def fresh : StateM State Site :=
  modifyGet fun s => (s.decls.size, { s with decls := s.decls.push none })

def State.scope? (s : State) (m : Mark) : Option Scope :=
  if m = 0 then none else s.scopes[m - 1]?

/-- The scope that holds a name of the given kind declared at the place reached.  A `var` goes out to the
nearest function or program, an import to the program. -/
def State.holder (s : State) (kind : BindingKind) : Mark :=
  match kind with
  | .var =>
    (s.path.find? fun m => (s.scope? m).any fun sc => sc.kind = .function || sc.kind = .program).getD 0
  | .module => 1
  | _ => s.path.head?.getD 0

/-- The statement that counts as the container of a name of the given kind. -/
def State.containerFor (s : State) (kind : BindingKind) : Option Container :=
  match kind with
  | .param | .caught | .own => none
  | _ => s.container

/-- Declares a name.  A name declared again is no constant, nor is one in the head of a loop. -/
def declare (inHead : Bool) (id : Ident) (kind : BindingKind) (origin : Site → Origin) :
    StateM State Ident := do
  let site ← fresh
  let s ← get
  let holder := s.holder kind
  let container := s.containerFor kind
  let isExported := container.any Container.isExport
  match (s.scope? holder).bind (·.binding? id.name) with
  | some b =>
    set { s with
      bindings := s.bindings.modify b fun old => { old with
        isConstant := false
        isExported := old.isExported || isExported }
      decls := s.decls.setIfInBounds site (some b) }
  | none =>
    let b : Binding :=
      { name := id.name, kind, scope := holder, declScope := s.path.head?.getD 0,
        origin := origin site, container, isConstant := !inHead, isExported,
        isInitialized := kind.isHoisted }
    set { s with
      scopes := s.scopes.modify (holder - 1) fun sc =>
        { sc with names := sc.names ++ [(id.name, s.bindings.size)] }
      bindings := s.bindings.push b
      decls := s.decls.setIfInBounds site (some s.bindings.size) }
  return { id with mark := 0, site }

/-- Runs an action inside a new scope. -/
def inScope {α : Type} (kind : ScopeKind) (opener : Opener) (act : StateM State α) :
    StateM State α := do
  let outer := (← get).path
  modify fun s =>
    let mark := s.scopes.size + 1
    { s with scopes := s.scopes.push { mark, kind, opener, outer }, path := mark :: outer }
  let a ← act
  modify fun s => { s with path := outer }
  return a

/-- Marks declared names as exported. -/
def exportDeclared (ids : List Ident) : StateM State Unit :=
  modify fun s => ids.foldl (fun s id =>
    match s.decls[id.site]?.join with
    | some b => { s with bindings := s.bindings.modify b fun b => { b with isExported := true } }
    | none => s) s

def number (id : Ident) : StateM State Ident := do
  return { id with mark := 0, site := ← fresh }

def visitor : ScopeVisitor (StateM State) where
  site _ := fresh
  declare := declare
  refer _ := number
  exportName := number
  exportDeclared := exportDeclared
  inScope := inScope
  contain c := modify fun s => { s with container := c }
  called _ := return ()

end Hoist

/-! ### References -/

namespace Resolve

structure State where
  info : Info
  /-- The number of scopes entered so far, which is the mark of the last one. -/
  entered : Nat
  path : List Mark
deriving Inhabited

/-- Marks an identifier with the scope of the binding it declares, which is initialized from here on. -/
def declare (id : Ident) : StateM State Ident := do
  let s ← get
  match s.info.declaration? id with
  | none => return id
  | some b =>
    set { s with info := s.info.modifyBinding b fun b => { b with isInitialized := true } }
    return { id with mark := ((s.info.binding? b).map Binding.scope).getD 0 }

/-- Binds a reference to the innermost declaration of its name. -/
def refer (writing : Bool) (id : Ident) : StateM State Ident := do
  let s ← get
  match s.info.lookupIn s.path id.name with
  | none => return { id with mark := 0 }
  | some b =>
    let info := s.info.modifyBinding b fun b => { b with
      references := b.references + 1
      isConstant := b.isConstant && !writing
      isForward := b.isForward || (!writing && !b.isInitialized) }
    set { s with
      info := { info with refs := info.refs.setIfInBounds id.site (some (b, s.path.head?.getD 0)) } }
    return { id with mark := ((s.info.binding? b).map Binding.scope).getD 0 }

def exportName (id : Ident) : StateM State Ident := do
  let id ← refer false id
  modify fun s =>
    match s.info.bindingOf? id with
    | some b => { s with info := s.info.modifyBinding b fun b => { b with isExported := true } }
    | none => s
  return id

def inScope {α : Type} (act : StateM State α) : StateM State α := do
  let outer := (← get).path
  modify fun s => { s with entered := s.entered + 1, path := (s.entered + 1) :: outer }
  let a ← act
  modify fun s => { s with path := outer }
  return a

/-- A call of an `eval` that nothing declares sees the names of all scopes around it. -/
def called (id : Ident) : StateM State Unit :=
  modify fun s =>
    if id.name = "eval" ∧ id.mark = 0 then
      { s with
        info := s.path.foldl (fun info m => info.modifyScope m fun sc => { sc with hasEval := true })
          s.info }
    else s

def visitor : ScopeVisitor (StateM State) where
  site s := return s
  declare _ id _ _ := declare id
  refer := refer
  exportName := exportName
  exportDeclared _ := return ()
  inScope _ _ act := inScope act
  contain _ := return ()
  called := called

end Resolve

/-- What is known of the names of a program before its references are bound. -/
def Hoist.State.info (h : Hoist.State) : Info where
  scopes := h.scopes
  bindings := h.bindings
  refs := Array.replicate h.decls.size none
  decls := h.decls

/-- Resolves a program: every identifier gets the mark of the scope that declares it. -/
def Program.resolve (p : Program) : Program × Info :=
  let (p, h) := (p.walkScopes Hoist.visitor).run Hoist.State.start
  let (p, s) := (p.walkScopes Resolve.visitor).run { info := h.info, entered := 0, path := [] }
  (p, s.info)

end Deadwood
