import Deadwood.Scope.Occurrence

/-!
# Folds that agree

Two folds whose parts are related give related results on every piece of syntax.  Everything that is said
below of the result of a fold, or of two of them, is an instance.
-/

namespace Deadwood

variable {α β : Type}

/-- The parts of two folds respect a relation between their results. -/
structure Fold.Relates (F : Fold α) (G : Fold β) (R : α → β → Prop) : Prop where
  empty : R F.empty G.empty
  append : ∀ {a b a' b'}, R a b → R a' b' → R (F.append a a') (G.append b b')
  ident : ∀ role id, R (F.ident role id) (G.ident role id)
  expr : ∀ e {a b}, (∀ c, e = .cls c → a = c.fold F .own) → R a b → R (F.expr e a) (G.expr e b)
  stmt : ∀ t {a b}, (∀ specs source, t = .exportNames specs source →
    a = F.all (fun s => F.ident .exported s.source) specs) → R a b → R (F.stmt t a) (G.stmt t b)
  declarator : ∀ kind site target init,
    R (F.append (target.fold F kind) (Expr.foldOpt F init))
      (G.append (target.fold G kind) (Expr.foldOpt G init)) →
    R ((Declarator.mk site target init).fold F kind) ((Declarator.mk site target init).fold G kind)
  element : ∀ kind site target init,
    R (F.append (target.fold F kind) (Expr.foldOpt F init))
      (G.append (target.fold G kind) (Expr.foldOpt G init)) →
    R ((Declarator.mk site target init).foldElem F kind) ((Declarator.mk site target init).foldElem G kind)
  funcDecl : ∀ f, R (f.fold F .func) (f.fold G .func) →
    R (F.funcDecl f (f.fold F .func)) (G.funcDecl f (f.fold G .func))
  clsDecl : ∀ c, R (c.fold F .cls) (c.fold G .cls) →
    R (F.clsDecl c (c.fold F .cls)) (G.clsDecl c (c.fold G .cls))
  property : ∀ p {a b}, R a b → R (F.property p a) (G.property p b)
  hole : R F.hole G.hole

variable {F : Fold α} {G : Fold β} {R : α → β → Prop}

theorem Fold.Relates.optIdent (h : F.Relates G R) (role : Role) (id : Option Ident) :
    R (F.optIdent role id) (G.optIdent role id) := by
  cases id with
  | none => exact h.empty
  | some id => exact h.ident role id

theorem Fold.Relates.all (h : F.Relates G R) {γ : Type} {f : γ → α} {g : γ → β}
    (hfg : ∀ c, R (f c) (g c)) (cs : List γ) : R (F.all f cs) (G.all g cs) := by
  induction cs with
  | nil => exact h.empty
  | cons c cs ih => exact h.append (hfg c) ih

theorem Fold.Relates.ite (h : F.Relates G R) (c : Bool) {a : α} {b : β} (hab : R a b) :
    R (if c then a else F.empty) (if c then b else G.empty) := by
  cases c with
  | false => exact h.empty
  | true => exact hab

/-- Both folds make their results of a statement from related parts. -/
def RelatedParts (F : Fold α) (G : Fold β) (R : α → β → Prop) (t : Stmt) : Prop :=
  ∃ a b, t.fold F = F.stmt t a ∧ t.fold G = G.stmt t b ∧
    (∀ specs source, t = .exportNames specs source → a = F.all (fun s => F.ident .exported s.source) specs) ∧ R a b

theorem Fold.Relates.ofParts (h : F.Relates G R) {t : Stmt} (ht : RelatedParts F G R t) :
    R (t.fold F) (t.fold G) := by
  obtain ⟨a, b, ha, hb, hnames, hab⟩ := ht
  rw [ha, hb]
  exact h.stmt t hnames hab

mutual

theorem Expr.fold_related (h : F.Relates G R) (e : Expr) : R (e.fold F) (e.fold G) := by
  match e with
  | .hole | .this | .super | .null | .bool _ | .number .. | .string _ | .regExp .. =>
    exact h.expr _ nofun h.empty
  | .ident id => exact h.expr _ nofun (h.ident _ id)
  | .template tag _ es =>
    exact h.expr _ nofun (h.append (Expr.foldOpt_related h tag) (Expr.foldList_related h es))
  | .array es | .seq es => exact h.expr _ nofun (Expr.foldList_related h es)
  | .object ps => exact h.expr _ nofun (Property.foldList_related h ps)
  | .spread e | .unary _ e | .update _ e _ | .await e => exact h.expr _ nofun (Expr.fold_related h e)
  | .func f => exact h.expr _ nofun (Func.fold_related h _ f)
  | .arrow params rest body _ =>
    exact h.expr _ nofun (h.append (Declarator.foldElems_related h _ params)
      (h.append (Pattern.foldOpt_related h _ rest) (Expr.fold_related h body)))
  | .arrowBlock params rest body _ =>
    exact h.expr _ nofun (h.append (Declarator.foldElems_related h _ params)
      (h.append (Pattern.foldOpt_related h _ rest) (Stmt.foldList_related h body)))
  | .cls c => exact h.expr _ (fun _ he => by cases he; rfl) (Class.fold_related h _ c)
  | .binary _ l r | .assign _ l r =>
    exact h.expr _ nofun (h.append (Expr.fold_related h l) (Expr.fold_related h r))
  | .cond test yes no =>
    exact h.expr _ nofun (h.append (Expr.fold_related h test)
      (h.append (Expr.fold_related h yes) (Expr.fold_related h no)))
  | .call callee args _ | .new callee args =>
    exact h.expr _ nofun (h.append (Expr.fold_related h callee) (Expr.foldList_related h args))
  | .member object name _ => exact h.expr _ nofun (h.append (Expr.fold_related h object) (h.ident _ name))
  | .index object key _ =>
    exact h.expr _ nofun (h.append (Expr.fold_related h object) (Expr.fold_related h key))
  | .yield arg _ => exact h.expr _ nofun (Expr.foldOpt_related h arg)

theorem Expr.foldOpt_related (h : F.Relates G R) (e : Option Expr) :
    R (Expr.foldOpt F e) (Expr.foldOpt G e) := by
  match e with
  | none => exact h.empty
  | some e => exact Expr.fold_related h e

theorem Expr.foldList_related (h : F.Relates G R) (es : List Expr) :
    R (Expr.foldList F es) (Expr.foldList G es) := by
  match es with
  | [] => exact h.empty
  | e :: es => exact h.append (Expr.fold_related h e) (Expr.foldList_related h es)

theorem Property.fold_related (h : F.Relates G R) (p : Property) : R (p.fold F) (p.fold G) := by
  match p with
  | .short id init => exact h.property _ (h.append (h.ident _ id) (Expr.foldOpt_related h init))
  | .keyed key _ value computed =>
    exact h.property _ (h.append (h.ite computed (Expr.fold_related h key)) (Expr.fold_related h value))
  | .spread e => exact h.property _ (Expr.fold_related h e)

theorem Property.foldList_related (h : F.Relates G R) (ps : List Property) :
    R (Property.foldList F ps) (Property.foldList G ps) := by
  match ps with
  | [] => exact h.empty
  | p :: ps => exact h.append (Property.fold_related h p) (Property.foldList_related h ps)

theorem Func.fold_related (h : F.Relates G R) (kind : BindingKind) (f : Func) :
    R (f.fold F kind) (f.fold G kind) := by
  match f with
  | .mk name params rest body _ _ =>
    exact h.append (h.optIdent _ name) (h.append (Declarator.foldElems_related h _ params)
      (h.append (Pattern.foldOpt_related h _ rest) (Stmt.foldList_related h body)))

theorem Class.fold_related (h : F.Relates G R) (kind : BindingKind) (c : Class) :
    R (c.fold F kind) (c.fold G kind) := by
  match c with
  | .mk name superclass body decorators =>
    exact h.append (Expr.foldList_related h decorators) (h.append (h.optIdent _ name)
      (h.append (Expr.foldOpt_related h superclass) (ClassElement.foldList_related h body)))

theorem ClassElement.fold_related (h : F.Relates G R) (e : ClassElement) :
    R (e.fold F) (e.fold G) := by
  match e with
  | .field key init computed _ =>
    exact h.append (h.ite computed (Expr.fold_related h key)) (Expr.foldOpt_related h init)
  | .method key _ body computed _ =>
    exact h.append (h.ite computed (Expr.fold_related h key)) (Func.fold_related h _ body)
  | .block body => exact Stmt.foldList_related h body

theorem ClassElement.foldList_related (h : F.Relates G R) (es : List ClassElement) :
    R (ClassElement.foldList F es) (ClassElement.foldList G es) := by
  match es with
  | [] => exact h.empty
  | e :: es => exact h.append (ClassElement.fold_related h e) (ClassElement.foldList_related h es)

theorem Pattern.fold_related (h : F.Relates G R) (kind : BindingKind) (p : Pattern) :
    R (p.fold F kind) (p.fold G kind) := by
  match p with
  | .hole => exact h.hole
  | .ident id => exact h.ident _ id
  | .array elems rest =>
    exact h.append (Declarator.foldElems_related h kind elems) (Pattern.foldOpt_related h kind rest)
  | .object props rest =>
    exact h.append (PatternProp.foldList_related h kind props) (Pattern.foldOpt_related h kind rest)

theorem Pattern.foldOpt_related (h : F.Relates G R) (kind : BindingKind) (p : Option Pattern) :
    R (Pattern.foldOpt F kind p) (Pattern.foldOpt G kind p) := by
  match p with
  | none => exact h.empty
  | some p => exact Pattern.fold_related h kind p

theorem Declarator.fold_related (h : F.Relates G R) (kind : BindingKind) (d : Declarator) :
    R (d.fold F kind) (d.fold G kind) := by
  match d with
  | .mk _ target init =>
    exact h.declarator _ _ _ _ (h.append (Pattern.fold_related h kind target) (Expr.foldOpt_related h init))

theorem Declarator.foldList_related (h : F.Relates G R) (kind : BindingKind)
    (ds : List Declarator) : R (Declarator.foldList F kind ds) (Declarator.foldList G kind ds) := by
  match ds with
  | [] => exact h.empty
  | d :: ds => exact h.append (Declarator.fold_related h kind d) (Declarator.foldList_related h kind ds)

theorem Declarator.foldElem_related (h : F.Relates G R) (kind : BindingKind) (d : Declarator) :
    R (d.foldElem F kind) (d.foldElem G kind) := by
  match d with
  | .mk _ target init =>
    exact h.element _ _ _ _ (h.append (Pattern.fold_related h kind target) (Expr.foldOpt_related h init))

theorem Declarator.foldElems_related (h : F.Relates G R) (kind : BindingKind)
    (ds : List Declarator) : R (Declarator.foldElems F kind ds) (Declarator.foldElems G kind ds) := by
  match ds with
  | [] => exact h.empty
  | d :: ds =>
    exact h.append (Declarator.foldElem_related h kind d) (Declarator.foldElems_related h kind ds)

theorem PatternProp.fold_related (h : F.Relates G R) (kind : BindingKind) (p : PatternProp) :
    R (p.fold F kind) (p.fold G kind) := by
  match p with
  | .mk key computed _ value =>
    exact h.append (h.ite computed (Expr.fold_related h key)) (Declarator.foldElem_related h kind value)

theorem PatternProp.foldList_related (h : F.Relates G R) (kind : BindingKind)
    (ps : List PatternProp) :
    R (PatternProp.foldList F kind ps) (PatternProp.foldList G kind ps) := by
  match ps with
  | [] => exact h.empty
  | p :: ps =>
    exact h.append (PatternProp.fold_related h kind p) (PatternProp.foldList_related h kind ps)

theorem Stmt.parts_related (h : F.Relates G R) (t : Stmt) : RelatedParts F G R t := by
  match t with
  | .empty | .debugger | .exportAll .. => exact ⟨_, _, rfl, rfl, nofun, h.empty⟩
  | .block body => exact ⟨_, _, rfl, rfl, nofun, Stmt.foldList_related h body⟩
  | .expr e | .throw e | .exportDefaultExpr e => exact ⟨_, _, rfl, rfl, nofun, Expr.fold_related h e⟩
  | .cond test yes no =>
    exact ⟨_, _, rfl, rfl, nofun, h.append (Expr.fold_related h test)
      (h.append (h.ofParts (Stmt.parts_related h yes)) (Stmt.foldOpt_related h no))⟩
  | .ret arg => exact ⟨_, _, rfl, rfl, nofun, Expr.foldOpt_related h arg⟩
  | .brk label | .cont label => exact ⟨_, _, rfl, rfl, nofun, h.optIdent _ label⟩
  | .labelled label body =>
    exact ⟨_, _, rfl, rfl, nofun, h.append (h.ident _ label) (h.ofParts (Stmt.parts_related h body))⟩
  | .while test body =>
    exact ⟨_, _, rfl, rfl, nofun, h.append (Expr.fold_related h test) (h.ofParts (Stmt.parts_related h body))⟩
  | .doWhile body test =>
    exact ⟨_, _, rfl, rfl, nofun, h.append (h.ofParts (Stmt.parts_related h body)) (Expr.fold_related h test)⟩
  | .for head test update body =>
    exact ⟨_, _, rfl, rfl, nofun, h.append (ForHead.fold_related h head) (h.append (Expr.foldOpt_related h test)
      (h.append (Expr.foldOpt_related h update) (h.ofParts (Stmt.parts_related h body))))⟩
  | .forIn head source body | .forOf head source body _ =>
    exact ⟨_, _, rfl, rfl, nofun, h.append (ForHead.fold_related h head)
      (h.append (Expr.fold_related h source) (h.ofParts (Stmt.parts_related h body)))⟩
  | .switch subject cases =>
    exact ⟨_, _, rfl, rfl, nofun, h.append (Expr.fold_related h subject) (Case.foldList_related h cases)⟩
  | .tryCatch body param handler finalizer =>
    exact ⟨_, _, rfl, rfl, nofun, h.append (Stmt.foldList_related h body) (h.append (Pattern.foldOpt_related h _ param)
      (h.append (Stmt.foldList_related h handler) (Stmt.foldOptList_related h finalizer)))⟩
  | .tryFinally body finalizer =>
    exact ⟨_, _, rfl, rfl, nofun, h.append (Stmt.foldList_related h body) (Stmt.foldList_related h finalizer)⟩
  | .decl _ list => exact ⟨_, _, rfl, rfl, nofun, Declarator.foldList_related h _ list⟩
  | .func f => exact ⟨_, _, rfl, rfl, nofun, h.funcDecl f (Func.fold_related h _ f)⟩
  | .cls c => exact ⟨_, _, rfl, rfl, nofun, h.clsDecl c (Class.fold_related h _ c)⟩
  | .importDecl specs _ => exact ⟨_, _, rfl, rfl, nofun, h.all (fun s => h.ident _ s.binder) specs⟩
  | .exportDecl decl | .exportDefault decl =>
    exact ⟨_, _, rfl, rfl, nofun, h.ofParts (Stmt.parts_related h decl)⟩
  | .exportNames specs _ =>
    exact ⟨_, _, rfl, rfl, fun _ _ he => by cases he; rfl, h.all (fun s => h.ident _ s.source) specs⟩

theorem Stmt.foldOpt_related (h : F.Relates G R) (t : Option Stmt) :
    R (Stmt.foldOpt F t) (Stmt.foldOpt G t) := by
  match t with
  | none => exact h.empty
  | some t => exact h.ofParts (Stmt.parts_related h t)

theorem Stmt.foldList_related (h : F.Relates G R) (ts : List Stmt) :
    R (Stmt.foldList F ts) (Stmt.foldList G ts) := by
  match ts with
  | [] => exact h.empty
  | t :: ts => exact h.append (h.ofParts (Stmt.parts_related h t)) (Stmt.foldList_related h ts)

theorem Stmt.foldOptList_related (h : F.Relates G R) (ts : Option (List Stmt)) :
    R (Stmt.foldOptList F ts) (Stmt.foldOptList G ts) := by
  match ts with
  | none => exact h.empty
  | some ts => exact Stmt.foldList_related h ts

theorem ForHead.fold_related (h : F.Relates G R) (head : ForHead) :
    R (head.fold F) (head.fold G) := by
  match head with
  | .empty => exact h.empty
  | .decl _ list => exact Declarator.foldList_related h _ list
  | .expr e => exact Expr.fold_related h e

theorem Case.fold_related (h : F.Relates G R) (c : Case) : R (c.fold F) (c.fold G) := by
  match c with
  | .mk test body => exact h.append (Expr.foldOpt_related h test) (Stmt.foldList_related h body)

theorem Case.foldList_related (h : F.Relates G R) (cs : List Case) :
    R (Case.foldList F cs) (Case.foldList G cs) := by
  match cs with
  | [] => exact h.empty
  | c :: cs => exact h.append (Case.fold_related h c) (Case.foldList_related h cs)

end

theorem Stmt.fold_related (h : F.Relates G R) (t : Stmt) : R (t.fold F) (t.fold G) :=
  h.ofParts (t.parts_related h)

theorem Program.fold_related (h : F.Relates G R) (p : Program) : R (p.fold F) (p.fold G) :=
  Stmt.foldList_related h p.body

/-! ### Variables -/

/-- The fold that collects the names declared by `var`. -/
abbrev Stmt.varFold : Fold (List Ident) :=
  { Fold.idents (· = .binding .var) with
    expr := fun _ _ => []
    funcDecl := fun _ _ => []
    clsDecl := fun _ _ => [] }

theorem Stmt.varFold_expr (e : Expr) : e.fold Stmt.varFold = [] := by
  cases e <;> rfl

end Deadwood
