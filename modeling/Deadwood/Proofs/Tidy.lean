import Deadwood.Proofs.Head

/-!
# Programs without idle statements

`Program.tidy` drops the statements of lists that do nothing, and gives identifiers other stamps.  This is
all that a pass does to a program that it does not change.  What is collected from a tidied program is, but
for the stamps, what is collected from the program itself.
-/

namespace Deadwood

/-- A declaration of nothing does nothing. -/
def Stmt.settle : Stmt → Stmt
  | .decl _ [] => .empty
  | t => t

mutual

/-- An expression with other identifiers and without idle statements. -/
def Expr.tidy (f : Ident → Ident) : Expr → Expr
  | .hole => .hole
  | .ident id => .ident (f id)
  | .this => .this
  | .super => .super
  | .null => .null
  | .bool b => .bool b
  | .number value raw => .number value raw
  | .string lit => .string lit
  | .regExp pattern flags => .regExp pattern flags
  | .template tag chunks es => .template (Expr.tidyOpt f tag) chunks (Expr.tidyList f es)
  | .array es => .array (Expr.tidyList f es)
  | .object ps => .object (Property.tidyList f ps)
  | .spread e => .spread (e.tidy f)
  | .func fn => .func (fn.tidy f)
  | .arrow params rest body async =>
    .arrow (Declarator.tidyList f params) (Pattern.tidyOpt f rest) (body.tidy f) async
  | .arrowBlock params rest body async =>
    .arrowBlock (Declarator.tidyList f params) (Pattern.tidyOpt f rest) (Stmt.tidyList f body) async
  | .cls c => .cls (c.tidy f)
  | .unary op e => .unary op (e.tidy f)
  | .update op e post => .update op (e.tidy f) post
  | .binary op l r => .binary op (l.tidy f) (r.tidy f)
  | .assign op l r => .assign op (l.tidy f) (r.tidy f)
  | .cond test yes no => .cond (test.tidy f) (yes.tidy f) (no.tidy f)
  | .seq es => .seq (Expr.tidyList f es)
  | .call callee args optional => .call (callee.tidy f) (Expr.tidyList f args) optional
  | .new callee args => .new (callee.tidy f) (Expr.tidyList f args)
  | .member object name optional => .member (object.tidy f) name optional
  | .index object key optional => .index (object.tidy f) (key.tidy f) optional
  | .await e => .await (e.tidy f)
  | .yield arg delegate => .yield (Expr.tidyOpt f arg) delegate

def Expr.tidyOpt (f : Ident → Ident) : Option Expr → Option Expr
  | none => none
  | some e => some (e.tidy f)

def Expr.tidyList (f : Ident → Ident) : List Expr → List Expr
  | [] => []
  | e :: es => e.tidy f :: Expr.tidyList f es

def Property.tidy (f : Ident → Ident) : Property → Property
  | .short id init => .short (f id) (Expr.tidyOpt f init)
  | .keyed key kind value computed => .keyed (if computed then key.tidy f else key) kind (value.tidy f) computed
  | .spread e => .spread (e.tidy f)

def Property.tidyList (f : Ident → Ident) : List Property → List Property
  | [] => []
  | p :: ps => p.tidy f :: Property.tidyList f ps

def Func.tidy (f : Ident → Ident) : Func → Func
  | .mk name params rest body async generator =>
    .mk (name.map f) (Declarator.tidyList f params) (Pattern.tidyOpt f rest) (Stmt.tidyList f body) async
      generator

def Class.tidy (f : Ident → Ident) : Class → Class
  | .mk name superclass body decorators =>
    .mk (name.map f) (Expr.tidyOpt f superclass) (ClassElement.tidyList f body) (Expr.tidyList f decorators)

def ClassElement.tidy (f : Ident → Ident) : ClassElement → ClassElement
  | .field key init computed isStatic =>
    .field (if computed then key.tidy f else key) (Expr.tidyOpt f init) computed isStatic
  | .method key kind body computed isStatic =>
    .method (if computed then key.tidy f else key) kind (body.tidy f) computed isStatic
  | .block body => .block (Stmt.tidyList f body)

def ClassElement.tidyList (f : Ident → Ident) : List ClassElement → List ClassElement
  | [] => []
  | e :: es => e.tidy f :: ClassElement.tidyList f es

def Pattern.tidy (f : Ident → Ident) : Pattern → Pattern
  | .hole => .hole
  | .ident id => .ident (f id)
  | .array elems rest => .array (Declarator.tidyList f elems) (Pattern.tidyOpt f rest)
  | .object props rest => .object (PatternProp.tidyList f props) (Pattern.tidyOpt f rest)

def Pattern.tidyOpt (f : Ident → Ident) : Option Pattern → Option Pattern
  | none => none
  | some p => some (p.tidy f)

def Declarator.tidy (f : Ident → Ident) : Declarator → Declarator
  | .mk site target init => .mk site (target.tidy f) (Expr.tidyOpt f init)

def Declarator.tidyList (f : Ident → Ident) : List Declarator → List Declarator
  | [] => []
  | d :: ds => d.tidy f :: Declarator.tidyList f ds

def PatternProp.tidy (f : Ident → Ident) : PatternProp → PatternProp
  | .mk key computed shorthand value => .mk (if computed then key.tidy f else key) computed shorthand (value.tidy f)

def PatternProp.tidyList (f : Ident → Ident) : List PatternProp → List PatternProp
  | [] => []
  | p :: ps => p.tidy f :: PatternProp.tidyList f ps

def Stmt.tidy (f : Ident → Ident) : Stmt → Stmt
  | .empty => .empty
  | .debugger => .debugger
  | .block body => .block (Stmt.tidyList f body)
  | .expr e => .expr (e.tidy f)
  | .cond test yes no => .cond (test.tidy f) (yes.tidy f).settle (Stmt.tidyOpt f no)
  | .ret arg => .ret (Expr.tidyOpt f arg)
  | .throw arg => .throw (arg.tidy f)
  | .brk label => .brk label
  | .cont label => .cont label
  | .labelled label body => .labelled label (body.tidy f).settle
  | .while test body => .while (test.tidy f) (body.tidy f).settle
  | .doWhile body test => .doWhile (body.tidy f).settle (test.tidy f)
  | .for head test update body =>
    .for (head.tidy f) (Expr.tidyOpt f test) (Expr.tidyOpt f update) (body.tidy f).settle
  | .forIn head source body => .forIn (head.tidy f) (source.tidy f) (body.tidy f).settle
  | .forOf head source body await => .forOf (head.tidy f) (source.tidy f) (body.tidy f).settle await
  | .switch subject cases => .switch (subject.tidy f) (Case.tidyList f cases)
  | .tryCatch body param handler finalizer =>
    .tryCatch (Stmt.tidyList f body) (Pattern.tidyOpt f param) (Stmt.tidyList f handler)
      (Stmt.tidyBlock f finalizer)
  | .tryFinally body finalizer => .tryFinally (Stmt.tidyList f body) (Stmt.tidyList f finalizer)
  | .decl kind list => .decl kind (Declarator.tidyList f list)
  | .func fn => .func (fn.tidy f)
  | .cls c => .cls (c.tidy f)
  | .importDecl specs source => .importDecl (specs.map fun s => { s with binder := f s.binder }) source
  | .exportDecl decl => .exportDecl (decl.tidy f).settle
  | .exportNames specs source =>
    .exportNames (if source.isSome then specs else specs.map fun s => { s with source := f s.source }) source
  | .exportAll name source => .exportAll name source
  | .exportDefault decl => .exportDefault (decl.tidy f).settle
  | .exportDefaultExpr e => .exportDefaultExpr (e.tidy f)

def Stmt.tidyOpt (f : Ident → Ident) : Option Stmt → Option Stmt
  | none => none
  | some t => some (t.tidy f).settle

/-- The statements of a list that do something. -/
def Stmt.tidyList (f : Ident → Ident) : List Stmt → List Stmt
  | [] => []
  | t :: ts =>
    if (t.tidy f).settle.isEmpty then Stmt.tidyList f ts else (t.tidy f).settle :: Stmt.tidyList f ts

def Stmt.tidyBlock (f : Ident → Ident) : Option (List Stmt) → Option (List Stmt)
  | none => none
  | some ts => some (Stmt.tidyList f ts)

def ForHead.tidy (f : Ident → Ident) : ForHead → ForHead
  | .empty => .empty
  | .decl kind list => .decl kind (Declarator.tidyList f list)
  | .expr e => .expr (e.tidy f)

def Case.tidy (f : Ident → Ident) : Case → Case
  | .mk test body => .mk (Expr.tidyOpt f test) (Stmt.tidyList f body)

def Case.tidyList (f : Ident → Ident) : List Case → List Case
  | [] => []
  | c :: cs => c.tidy f :: Case.tidyList f cs

end

def Program.tidy (f : Ident → Ident) (p : Program) : Program := ⟨Stmt.tidyList f p.body⟩

theorem Declarator.tidyList_eq_map (f : Ident → Ident) (ds : List Declarator) :
    Declarator.tidyList f ds = ds.map (Declarator.tidy f) := by
  induction ds with
  | nil => rfl
  | cons d ds ih => exact congrArg (d.tidy f :: ·) ih

/-! ### Names -/

mutual

theorem Pattern.tidy_names (f : Ident → Ident) (p : Pattern) : (p.tidy f).names = p.names.map f := by
  match p with
  | .hole | .ident _ => rfl
  | .array elems rest =>
    simp only [Pattern.tidy, Pattern.names, List.map_append]
    rw [Declarator.tidyList_names f elems, Pattern.tidyOpt_names f rest]
  | .object props rest =>
    simp only [Pattern.tidy, Pattern.names, List.map_append]
    rw [PatternProp.tidyList_names f props, Pattern.tidyOpt_names f rest]

theorem Pattern.tidyOpt_names (f : Ident → Ident) (p : Option Pattern) :
    Pattern.optNames (Pattern.tidyOpt f p) = (Pattern.optNames p).map f := by
  match p with
  | none => rfl
  | some p => exact Pattern.tidy_names f p

theorem Declarator.tidy_names (f : Ident → Ident) (d : Declarator) : (d.tidy f).names = d.names.map f := by
  match d with
  | .mk _ target _ => exact Pattern.tidy_names f target

theorem Declarator.tidyList_names (f : Ident → Ident) (ds : List Declarator) :
    Declarator.listNames (Declarator.tidyList f ds) = (Declarator.listNames ds).map f := by
  match ds with
  | [] => rfl
  | d :: ds =>
    simp only [Declarator.tidyList, Declarator.listNames, List.map_append]
    rw [Declarator.tidy_names f d, Declarator.tidyList_names f ds]

theorem PatternProp.tidy_names (f : Ident → Ident) (p : PatternProp) : (p.tidy f).names = p.names.map f := by
  match p with
  | .mk _ _ _ value => exact Declarator.tidy_names f value

theorem PatternProp.tidyList_names (f : Ident → Ident) (ps : List PatternProp) :
    PatternProp.listNames (PatternProp.tidyList f ps) = (PatternProp.listNames ps).map f := by
  match ps with
  | [] => rfl
  | p :: ps =>
    simp only [PatternProp.tidyList, PatternProp.listNames, List.map_append]
    rw [PatternProp.tidy_names f p, PatternProp.tidyList_names f ps]

end

/-! ### Folds -/

variable {α β : Type}

/-- The parts of two folds respect a relation between the result of the first on a piece of syntax and the
result of the second on what it is tidied to. -/
structure Fold.Tidies (F : Fold α) (G : Fold β) (f : Ident → Ident) (R : α → β → Prop) : Prop where
  stmt_left : ∀ t a, F.stmt t a = a
  stmt_right : ∀ t b, G.stmt t b = b
  empty_left : ∀ b, G.append G.empty b = b
  empty : R F.empty G.empty
  append : ∀ {a b a' b'}, R a b → R a' b' → R (F.append a a') (G.append b b')
  ident : ∀ role id, R (F.ident role id) (G.ident role (f id))
  /-- Labels, names of properties and names in exports from elsewhere are not bound to anything. -/
  unbound : ∀ role id, role = .label ∨ role = .property ∨ role = .exported →
    R (F.ident role id) (G.ident role id)
  hole : R F.hole G.hole
  expr : ∀ e {a b}, R a b → R (F.expr e a) (G.expr (e.tidy f) b)
  property : ∀ p {a b}, R a b → R (F.property p a) (G.property (p.tidy f) b)
  declarator : ∀ kind site target init,
    R (F.append (target.fold F kind) (Expr.foldOpt F init))
      (G.append ((target.tidy f).fold G kind) (Expr.foldOpt G (Expr.tidyOpt f init))) →
    R ((Declarator.mk site target init).fold F kind) (((Declarator.mk site target init).tidy f).fold G kind)
  element : ∀ kind site target init,
    R (F.append (target.fold F kind) (Expr.foldOpt F init))
      (G.append ((target.tidy f).fold G kind) (Expr.foldOpt G (Expr.tidyOpt f init))) →
    R ((Declarator.mk site target init).foldElem F kind) (((Declarator.mk site target init).tidy f).foldElem G kind)
  funcDecl : ∀ fn, R (fn.fold F .func) ((fn.tidy f).fold G .func) →
    R (F.funcDecl fn (fn.fold F .func)) (G.funcDecl (fn.tidy f) ((fn.tidy f).fold G .func))
  clsDecl : ∀ c, R (c.fold F .cls) ((c.tidy f).fold G .cls) →
    R (F.clsDecl c (c.fold F .cls)) (G.clsDecl (c.tidy f) ((c.tidy f).fold G .cls))

variable {F : Fold α} {G : Fold β} {f : Ident → Ident} {R : α → β → Prop}

namespace Fold.Tidies

theorem optIdent (h : F.Tidies G f R) (role : Role) (id : Option Ident) :
    R (F.optIdent role id) (G.optIdent role (id.map f)) := by
  cases id with
  | none => exact h.empty
  | some id => exact h.ident role id

theorem optLabel (h : F.Tidies G f R) (id : Option Ident) : R (F.optIdent .label id) (G.optIdent .label id) := by
  cases id with
  | none => exact h.empty
  | some id => exact h.unbound .label id (.inl rfl)

theorem key (h : F.Tidies G f R) (computed : Bool) {e : Expr} (he : R (e.fold F) ((e.tidy f).fold G)) :
    R (if computed then e.fold F else F.empty)
      (if computed then (if computed then e.tidy f else e).fold G else G.empty) := by
  cases computed with
  | false => exact h.empty
  | true => exact he

theorem all (h : F.Tidies G f R) {γ : Type} (role : Role) (a : γ → Ident) {g : γ → γ} (hg : ∀ c, a (g c) = f (a c))
    (cs : List γ) :
    R (F.all (fun c => F.ident role (a c)) cs) (G.all (fun c => G.ident role (a c)) (cs.map g)) := by
  induction cs with
  | nil => exact h.empty
  | cons c cs ih =>
    refine h.append ?_ ih
    show R (F.ident role (a c)) (G.ident role (a (g c)))
    rw [hg]
    exact h.ident role (a c)

theorem allUnbound (h : F.Tidies G f R) (specs : List ExportSpec) :
    R (F.all (fun s => F.ident .exported s.source) specs) (G.all (fun s => G.ident .exported s.source) specs) := by
  induction specs with
  | nil => exact h.empty
  | cons s specs ih => exact h.append (h.unbound .exported s.source (.inr (.inr rfl))) ih

theorem fold_isEmpty (h : F.Tidies G f R) {t : Stmt} (ht : t.isEmpty = true) : t.fold G = G.empty := by
  cases t with
  | empty => exact h.stmt_right _ _
  | block body =>
    cases body with
    | nil => exact h.stmt_right _ _
    | cons t ts => cases ht
  | _ => cases ht

theorem fold_settle (h : F.Tidies G f R) (t : Stmt) : t.settle.fold G = t.fold G := by
  cases t with
  | decl kind list =>
    cases list with
    | nil => exact (h.stmt_right _ _).trans (h.stmt_right _ _).symm
    | cons d ds => rfl
  | _ => rfl

/-- A statement of which the parts are related is related. -/
theorem parts (h : F.Tidies G f R) {t : Stmt} {a : α} {b : β} (hF : t.fold F = F.stmt t a)
    (hG : (t.tidy f).fold G = G.stmt (t.tidy f) b) (hab : R a b) : R (t.fold F) ((t.tidy f).settle.fold G) := by
  rw [h.fold_settle, hF, hG, h.stmt_left, h.stmt_right]
  exact hab

end Fold.Tidies

mutual

theorem Expr.fold_tidy (h : F.Tidies G f R) (e : Expr) : R (e.fold F) ((e.tidy f).fold G) := by
  match e with
  | .hole | .this | .super | .null | .bool _ | .number .. | .string _ | .regExp .. => exact h.expr _ h.empty
  | .ident id => exact h.expr _ (h.ident _ id)
  | .template tag _ es => exact h.expr _ (h.append (Expr.foldOpt_tidy h tag) (Expr.foldList_tidy h es))
  | .array es | .seq es => exact h.expr _ (Expr.foldList_tidy h es)
  | .object ps => exact h.expr _ (Property.foldList_tidy h ps)
  | .spread e | .unary _ e | .update _ e _ | .await e => exact h.expr _ (Expr.fold_tidy h e)
  | .func fn => exact h.expr _ (Func.fold_tidy h _ fn)
  | .arrow params rest body _ =>
    exact h.expr _ (h.append (Declarator.foldElems_tidy h _ params)
      (h.append (Pattern.foldOpt_tidy h _ rest) (Expr.fold_tidy h body)))
  | .arrowBlock params rest body _ =>
    exact h.expr _ (h.append (Declarator.foldElems_tidy h _ params)
      (h.append (Pattern.foldOpt_tidy h _ rest) (Stmt.foldList_tidy h body)))
  | .cls c => exact h.expr _ (Class.fold_tidy h _ c)
  | .binary _ x y | .assign _ x y => exact h.expr _ (h.append (Expr.fold_tidy h x) (Expr.fold_tidy h y))
  | .cond test yes no =>
    exact h.expr _ (h.append (Expr.fold_tidy h test) (h.append (Expr.fold_tidy h yes) (Expr.fold_tidy h no)))
  | .call callee args _ | .new callee args =>
    exact h.expr _ (h.append (Expr.fold_tidy h callee) (Expr.foldList_tidy h args))
  | .member object name _ =>
    exact h.expr _ (h.append (Expr.fold_tidy h object) (h.unbound _ name (.inr (.inl rfl))))
  | .index object key _ => exact h.expr _ (h.append (Expr.fold_tidy h object) (Expr.fold_tidy h key))
  | .yield arg _ => exact h.expr _ (Expr.foldOpt_tidy h arg)

theorem Expr.foldOpt_tidy (h : F.Tidies G f R) (e : Option Expr) :
    R (Expr.foldOpt F e) (Expr.foldOpt G (Expr.tidyOpt f e)) := by
  match e with
  | none => exact h.empty
  | some e => exact Expr.fold_tidy h e

theorem Expr.foldList_tidy (h : F.Tidies G f R) (es : List Expr) :
    R (Expr.foldList F es) (Expr.foldList G (Expr.tidyList f es)) := by
  match es with
  | [] => exact h.empty
  | e :: es => exact h.append (Expr.fold_tidy h e) (Expr.foldList_tidy h es)

theorem Property.fold_tidy (h : F.Tidies G f R) (p : Property) : R (p.fold F) ((p.tidy f).fold G) := by
  match p with
  | .short id init => exact h.property _ (h.append (h.ident _ id) (Expr.foldOpt_tidy h init))
  | .keyed key _ value computed =>
    exact h.property _ (h.append (h.key computed (Expr.fold_tidy h key)) (Expr.fold_tidy h value))
  | .spread e => exact h.property _ (Expr.fold_tidy h e)

theorem Property.foldList_tidy (h : F.Tidies G f R) (ps : List Property) :
    R (Property.foldList F ps) (Property.foldList G (Property.tidyList f ps)) := by
  match ps with
  | [] => exact h.empty
  | p :: ps => exact h.append (Property.fold_tidy h p) (Property.foldList_tidy h ps)

theorem Func.fold_tidy (h : F.Tidies G f R) (kind : BindingKind) (fn : Func) :
    R (fn.fold F kind) ((fn.tidy f).fold G kind) := by
  match fn with
  | .mk name params rest body _ _ =>
    exact h.append (h.optIdent _ name) (h.append (Declarator.foldElems_tidy h _ params)
      (h.append (Pattern.foldOpt_tidy h _ rest) (Stmt.foldList_tidy h body)))

theorem Class.fold_tidy (h : F.Tidies G f R) (kind : BindingKind) (c : Class) :
    R (c.fold F kind) ((c.tidy f).fold G kind) := by
  match c with
  | .mk name superclass body decorators =>
    exact h.append (Expr.foldList_tidy h decorators) (h.append (h.optIdent _ name)
      (h.append (Expr.foldOpt_tidy h superclass) (ClassElement.foldList_tidy h body)))

theorem ClassElement.fold_tidy (h : F.Tidies G f R) (e : ClassElement) : R (e.fold F) ((e.tidy f).fold G) := by
  match e with
  | .field key init computed _ =>
    exact h.append (h.key computed (Expr.fold_tidy h key)) (Expr.foldOpt_tidy h init)
  | .method key _ body computed _ =>
    exact h.append (h.key computed (Expr.fold_tidy h key)) (Func.fold_tidy h _ body)
  | .block body => exact Stmt.foldList_tidy h body

theorem ClassElement.foldList_tidy (h : F.Tidies G f R) (es : List ClassElement) :
    R (ClassElement.foldList F es) (ClassElement.foldList G (ClassElement.tidyList f es)) := by
  match es with
  | [] => exact h.empty
  | e :: es => exact h.append (ClassElement.fold_tidy h e) (ClassElement.foldList_tidy h es)

theorem Pattern.fold_tidy (h : F.Tidies G f R) (kind : BindingKind) (p : Pattern) :
    R (p.fold F kind) ((p.tidy f).fold G kind) := by
  match p with
  | .hole => exact h.hole
  | .ident id => exact h.ident _ id
  | .array elems rest =>
    exact h.append (Declarator.foldElems_tidy h kind elems) (Pattern.foldOpt_tidy h kind rest)
  | .object props rest =>
    exact h.append (PatternProp.foldList_tidy h kind props) (Pattern.foldOpt_tidy h kind rest)

theorem Pattern.foldOpt_tidy (h : F.Tidies G f R) (kind : BindingKind) (p : Option Pattern) :
    R (Pattern.foldOpt F kind p) (Pattern.foldOpt G kind (Pattern.tidyOpt f p)) := by
  match p with
  | none => exact h.empty
  | some p => exact Pattern.fold_tidy h kind p

theorem Declarator.fold_tidy (h : F.Tidies G f R) (kind : BindingKind) (d : Declarator) :
    R (d.fold F kind) ((d.tidy f).fold G kind) := by
  match d with
  | .mk site target init =>
    exact h.declarator kind site target init
      (h.append (Pattern.fold_tidy h kind target) (Expr.foldOpt_tidy h init))

theorem Declarator.foldList_tidy (h : F.Tidies G f R) (kind : BindingKind) (ds : List Declarator) :
    R (Declarator.foldList F kind ds) (Declarator.foldList G kind (Declarator.tidyList f ds)) := by
  match ds with
  | [] => exact h.empty
  | d :: ds => exact h.append (Declarator.fold_tidy h kind d) (Declarator.foldList_tidy h kind ds)

theorem Declarator.foldElem_tidy (h : F.Tidies G f R) (kind : BindingKind) (d : Declarator) :
    R (d.foldElem F kind) ((d.tidy f).foldElem G kind) := by
  match d with
  | .mk site target init =>
    exact h.element kind site target init
      (h.append (Pattern.fold_tidy h kind target) (Expr.foldOpt_tidy h init))

theorem Declarator.foldElems_tidy (h : F.Tidies G f R) (kind : BindingKind) (ds : List Declarator) :
    R (Declarator.foldElems F kind ds) (Declarator.foldElems G kind (Declarator.tidyList f ds)) := by
  match ds with
  | [] => exact h.empty
  | d :: ds => exact h.append (Declarator.foldElem_tidy h kind d) (Declarator.foldElems_tidy h kind ds)

theorem PatternProp.fold_tidy (h : F.Tidies G f R) (kind : BindingKind) (p : PatternProp) :
    R (p.fold F kind) ((p.tidy f).fold G kind) := by
  match p with
  | .mk key computed _ value =>
    exact h.append (h.key computed (Expr.fold_tidy h key)) (Declarator.foldElem_tidy h kind value)

theorem PatternProp.foldList_tidy (h : F.Tidies G f R) (kind : BindingKind) (ps : List PatternProp) :
    R (PatternProp.foldList F kind ps) (PatternProp.foldList G kind (PatternProp.tidyList f ps)) := by
  match ps with
  | [] => exact h.empty
  | p :: ps => exact h.append (PatternProp.fold_tidy h kind p) (PatternProp.foldList_tidy h kind ps)

theorem Stmt.fold_tidy (h : F.Tidies G f R) (t : Stmt) : R (t.fold F) ((t.tidy f).settle.fold G) := by
  match t with
  | .empty | .debugger | .exportAll .. => exact h.parts rfl rfl h.empty
  | .block body => exact h.parts rfl rfl (Stmt.foldList_tidy h body)
  | .expr e | .throw e | .exportDefaultExpr e => exact h.parts rfl rfl (Expr.fold_tidy h e)
  | .cond test yes no =>
    exact h.parts rfl rfl (h.append (Expr.fold_tidy h test)
      (h.append (Stmt.fold_tidy h yes) (Stmt.foldOpt_tidy h no)))
  | .ret arg => exact h.parts rfl rfl (Expr.foldOpt_tidy h arg)
  | .brk label | .cont label => exact h.parts rfl rfl (h.optLabel label)
  | .labelled label body =>
    exact h.parts rfl rfl (h.append (h.unbound _ label (.inl rfl)) (Stmt.fold_tidy h body))
  | .while test body => exact h.parts rfl rfl (h.append (Expr.fold_tidy h test) (Stmt.fold_tidy h body))
  | .doWhile body test => exact h.parts rfl rfl (h.append (Stmt.fold_tidy h body) (Expr.fold_tidy h test))
  | .for head test update body =>
    exact h.parts rfl rfl (h.append (ForHead.fold_tidy h head) (h.append (Expr.foldOpt_tidy h test)
      (h.append (Expr.foldOpt_tidy h update) (Stmt.fold_tidy h body))))
  | .forIn head source body | .forOf head source body _ =>
    exact h.parts rfl rfl (h.append (ForHead.fold_tidy h head)
      (h.append (Expr.fold_tidy h source) (Stmt.fold_tidy h body)))
  | .switch subject cases =>
    exact h.parts rfl rfl (h.append (Expr.fold_tidy h subject) (Case.foldList_tidy h cases))
  | .tryCatch body param handler finalizer =>
    exact h.parts rfl rfl (h.append (Stmt.foldList_tidy h body) (h.append (Pattern.foldOpt_tidy h _ param)
      (h.append (Stmt.foldList_tidy h handler) (Stmt.foldOptList_tidy h finalizer))))
  | .tryFinally body finalizer =>
    exact h.parts rfl rfl (h.append (Stmt.foldList_tidy h body) (Stmt.foldList_tidy h finalizer))
  | .decl kind list => exact h.parts rfl rfl (Declarator.foldList_tidy h _ list)
  | .func fn => exact h.parts rfl rfl (h.funcDecl fn (Func.fold_tidy h _ fn))
  | .cls c => exact h.parts rfl rfl (h.clsDecl c (Class.fold_tidy h _ c))
  | .importDecl specs _ => exact h.parts rfl rfl (h.all (.binding .module) ImportSpec.binder (fun _ => rfl) specs)
  | .exportDecl decl | .exportDefault decl => exact h.parts rfl rfl (Stmt.fold_tidy h decl)
  | .exportNames specs none => exact h.parts rfl rfl (h.all .exported ExportSpec.source (fun _ => rfl) specs)
  | .exportNames specs (some _) => exact h.parts rfl rfl (h.allUnbound specs)

theorem Stmt.foldOpt_tidy (h : F.Tidies G f R) (t : Option Stmt) :
    R (Stmt.foldOpt F t) (Stmt.foldOpt G (Stmt.tidyOpt f t)) := by
  match t with
  | none => exact h.empty
  | some t => exact Stmt.fold_tidy h t

theorem Stmt.foldList_tidy (h : F.Tidies G f R) (ts : List Stmt) :
    R (Stmt.foldList F ts) (Stmt.foldList G (Stmt.tidyList f ts)) := by
  match ts with
  | [] => exact h.empty
  | t :: ts =>
    have ht := Stmt.fold_tidy h t
    have hts := Stmt.foldList_tidy h ts
    rw [Stmt.tidyList]
    split
    next he =>
      rw [h.fold_isEmpty he] at ht
      rw [← h.empty_left (Stmt.foldList G _)]
      exact h.append ht hts
    next => exact h.append ht hts

theorem Stmt.foldOptList_tidy (h : F.Tidies G f R) (ts : Option (List Stmt)) :
    R (Stmt.foldOptList F ts) (Stmt.foldOptList G (Stmt.tidyBlock f ts)) := by
  match ts with
  | none => exact h.empty
  | some ts => exact Stmt.foldList_tidy h ts

theorem ForHead.fold_tidy (h : F.Tidies G f R) (head : ForHead) : R (head.fold F) ((head.tidy f).fold G) := by
  match head with
  | .empty => exact h.empty
  | .decl kind list => exact Declarator.foldList_tidy h _ list
  | .expr e => exact Expr.fold_tidy h e

theorem Case.fold_tidy (h : F.Tidies G f R) (c : Case) : R (c.fold F) ((c.tidy f).fold G) := by
  match c with
  | .mk test body => exact h.append (Expr.foldOpt_tidy h test) (Stmt.foldList_tidy h body)

theorem Case.foldList_tidy (h : F.Tidies G f R) (cs : List Case) :
    R (Case.foldList F cs) (Case.foldList G (Case.tidyList f cs)) := by
  match cs with
  | [] => exact h.empty
  | c :: cs => exact h.append (Case.fold_tidy h c) (Case.foldList_tidy h cs)

end

theorem Program.fold_tidy (h : F.Tidies G f R) (p : Program) : R (p.fold F) ((p.tidy f).fold G) :=
  Stmt.foldList_tidy h p.body

/-! ### References and allocations -/

theorem Fold.references_tidies (f : Ident → Ident) :
    (Fold.idents (· = .reference)).Tidies (Fold.idents (· = .reference)) f fun a b => b = a.map f where
  stmt_left _ _ := rfl
  stmt_right _ _ := rfl
  empty_left _ := rfl
  empty := rfl
  append h h' := by rw [h, h']; exact (List.map_append ..).symm
  ident role id := by cases role <;> rfl
  unbound role id h := by rcases h with rfl | rfl | rfl <;> rfl
  hole := rfl
  expr _ _ _ h := h
  property _ _ _ h := h
  declarator _ _ _ _ h := h
  element _ _ _ _ h := h
  funcDecl _ h := h
  clsDecl _ h := h

theorem Expr.tidy_references (f : Ident → Ident) (e : Expr) : (e.tidy f).references = e.references.map f :=
  Expr.fold_tidy (Fold.references_tidies f) e

theorem Fold.anyExpr_tidies (f : Ident → Ident) {p : Expr → Bool} (hp : ∀ e, p (e.tidy f) = p e) :
    (Fold.anyExpr p).Tidies (Fold.anyExpr p) f fun a b => b = a where
  stmt_left _ _ := rfl
  stmt_right _ _ := rfl
  empty_left _ := rfl
  empty := rfl
  append h h' := by rw [h, h']
  ident _ _ := rfl
  unbound _ _ _ := rfl
  hole := rfl
  expr e a b h := by
    show (p (e.tidy f) || b) = (p e || a)
    rw [hp, h]
  property _ _ _ h := h
  declarator _ _ _ _ h := h
  element _ _ _ _ h := h
  funcDecl _ h := h
  clsDecl _ h := h

theorem Expr.tidy_allocates (f : Ident → Ident) (e : Expr) : (e.tidy f).allocates = e.allocates :=
  Expr.fold_tidy (Fold.anyExpr_tidies f fun e => by cases e <;> rfl) e
end Deadwood
