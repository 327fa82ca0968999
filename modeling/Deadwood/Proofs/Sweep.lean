import Deadwood.Proofs.Plain

/-!
# What a sweep takes out

A sweep tells with a single mark that something is to go, and the next slot that is completed takes the mark.
Without a mark, what is left of a piece of syntax is read off the piece: dead declarators go from their
declarations, and a declaration that is dead, or has no declarators left, goes from its slot.  The two agree,
because a mark never passes the slot that it was meant for.
-/

namespace Deadwood

open Removal

/-! ### What is left of a piece of syntax -/

mutual

def Expr.swept (d : Dead) : Expr → Expr
  | .template tag chunks es => .template (Expr.sweptOpt d tag) chunks (Expr.sweptList d es)
  | .array es => .array (Expr.sweptList d es)
  | .object ps => .object (Property.sweptList d ps)
  | .spread e => .spread (e.swept d)
  | .func f => .func (f.swept d)
  | .arrow params rest body async =>
    .arrow (Declarator.sweptList d params) (Pattern.sweptOpt d rest) (body.swept d) async
  | .arrowBlock params rest body async =>
    .arrowBlock (Declarator.sweptList d params) (Pattern.sweptOpt d rest) (Stmt.sweptList d body) async
  | .cls c => .cls (c.swept d)
  | .unary op e => .unary op (e.swept d)
  | .update op e post => .update op (e.swept d) post
  | .binary op x y => .binary op (x.swept d) (y.swept d)
  | .assign op x y => .assign op (x.swept d) (y.swept d)
  | .cond test yes no => .cond (test.swept d) (yes.swept d) (no.swept d)
  | .seq es => .seq (Expr.sweptList d es)
  | .call callee args optional => .call (callee.swept d) (Expr.sweptList d args) optional
  | .new callee args => .new (callee.swept d) (Expr.sweptList d args)
  | .member object name optional => .member (object.swept d) name optional
  | .index object key optional => .index (object.swept d) (key.swept d) optional
  | .await e => .await (e.swept d)
  | .yield arg delegate => .yield (Expr.sweptOpt d arg) delegate
  | e => e

def Expr.sweptOpt (d : Dead) : Option Expr → Option Expr
  | none => none
  | some e => some (e.swept d)

def Expr.sweptList (d : Dead) : List Expr → List Expr
  | [] => []
  | e :: es => e.swept d :: Expr.sweptList d es

def Property.swept (d : Dead) : Property → Property
  | .short id init => .short id (Expr.sweptOpt d init)
  | .keyed key kind value computed => .keyed (if computed then key.swept d else key) kind (value.swept d) computed
  | .spread e => .spread (e.swept d)

def Property.sweptList (d : Dead) : List Property → List Property
  | [] => []
  | p :: ps => p.swept d :: Property.sweptList d ps

def Func.swept (d : Dead) : Func → Func
  | .mk name params rest body async generator =>
    .mk name (Declarator.sweptList d params) (Pattern.sweptOpt d rest) (Stmt.sweptList d body) async generator

def Class.swept (d : Dead) : Class → Class
  | .mk name superclass body decorators =>
    .mk name (Expr.sweptOpt d superclass) (ClassElement.sweptList d body) (Expr.sweptList d decorators)

def ClassElement.swept (d : Dead) : ClassElement → ClassElement
  | .field key init computed isStatic =>
    .field (if computed then key.swept d else key) (Expr.sweptOpt d init) computed isStatic
  | .method key kind body computed isStatic =>
    .method (if computed then key.swept d else key) kind (body.swept d) computed isStatic
  | .block body => .block (Stmt.sweptList d body)

def ClassElement.sweptList (d : Dead) : List ClassElement → List ClassElement
  | [] => []
  | e :: es => e.swept d :: ClassElement.sweptList d es

def Pattern.swept (d : Dead) : Pattern → Pattern
  | .array elems rest => .array (Declarator.sweptList d elems) (Pattern.sweptOpt d rest)
  | .object props rest => .object (PatternProp.sweptList d props) (Pattern.sweptOpt d rest)
  | p => p

def Pattern.sweptOpt (d : Dead) : Option Pattern → Option Pattern
  | none => none
  | some p => some (p.swept d)

def Declarator.swept (d : Dead) : Declarator → Declarator
  | .mk site target init => .mk site (target.swept d) (Expr.sweptOpt d init)

/-- Parameters and elements of patterns, of which none is dead. -/
def Declarator.sweptList (d : Dead) : List Declarator → List Declarator
  | [] => []
  | x :: xs => x.swept d :: Declarator.sweptList d xs

/-- The declarators of a variable declaration that are left. -/
def Declarator.sweptDecls (d : Dead) : List Declarator → List Declarator
  | [] => []
  | x :: xs =>
    if d.declarator x.site then Declarator.sweptDecls d xs else x.swept d :: Declarator.sweptDecls d xs

def PatternProp.swept (d : Dead) : PatternProp → PatternProp
  | .mk key computed shorthand value => .mk (if computed then key.swept d else key) computed shorthand (value.swept d)

def PatternProp.sweptList (d : Dead) : List PatternProp → List PatternProp
  | [] => []
  | p :: ps => p.swept d :: PatternProp.sweptList d ps

/-- What is left of a statement; there is nothing if it goes from its slot. -/
def Stmt.swept? (d : Dead) : Stmt → Option Stmt
  | .block body => some (.block (Stmt.sweptList d body))
  | .expr e => some (.expr (e.swept d))
  | .cond test yes no => some (.cond (test.swept d) ((yes.swept? d).getD .empty) (Stmt.sweptOpt d no))
  | .ret arg => some (.ret (Expr.sweptOpt d arg))
  | .throw arg => some (.throw (arg.swept d))
  | .labelled label body => some (.labelled label ((body.swept? d).getD .empty))
  | .while test body => some (.while (test.swept d) ((body.swept? d).getD .empty))
  | .doWhile body test => some (.doWhile ((body.swept? d).getD .empty) (test.swept d))
  | .for head test update body =>
    some (.for (head.swept d) (Expr.sweptOpt d test) (Expr.sweptOpt d update) ((body.swept? d).getD .empty))
  | .forIn head source body => some (.forIn (head.swept d) (source.swept d) ((body.swept? d).getD .empty))
  | .forOf head source body await =>
    some (.forOf (head.swept d) (source.swept d) ((body.swept? d).getD .empty) await)
  | .switch subject cases => some (.switch (subject.swept d) (Case.sweptList d cases))
  | .tryCatch body param handler finalizer =>
    some (.tryCatch (Stmt.sweptList d body) (Pattern.sweptOpt d param) (Stmt.sweptList d handler)
      (Stmt.sweptOptList d finalizer))
  | .tryFinally body finalizer => some (.tryFinally (Stmt.sweptList d body) (Stmt.sweptList d finalizer))
  | .decl kind list =>
    if (Declarator.sweptDecls d list).isEmpty then none else some (.decl kind (Declarator.sweptDecls d list))
  | .func f => if d.func f then none else some (.func (f.swept d))
  | .cls c => if d.cls c then none else some (.cls (c.swept d))
  | .exportDecl decl => some (.exportDecl ((decl.swept? d).getD .empty))
  | .exportDefault decl => some (.exportDefault ((decl.swept? d).getD .empty))
  | .exportDefaultExpr e => some (.exportDefaultExpr (e.swept d))
  | s => some s

def Stmt.sweptOpt (d : Dead) : Option Stmt → Option Stmt
  | none => none
  | some s => some ((s.swept? d).getD .empty)

def Stmt.sweptList (d : Dead) : List Stmt → List Stmt
  | [] => []
  | s :: ss => (s.swept? d).toList ++ Stmt.sweptList d ss

def Stmt.sweptOptList (d : Dead) : Option (List Stmt) → Option (List Stmt)
  | none => none
  | some ss => some (Stmt.sweptList d ss)

/-- The first part of a loop, which is empty if no declarators are left. -/
def ForHead.swept (d : Dead) : ForHead → ForHead
  | .empty => .empty
  | .decl kind list =>
    if (Declarator.sweptDecls d list).isEmpty then .empty else .decl kind (Declarator.sweptDecls d list)
  | .expr e => .expr (e.swept d)

def Case.swept (d : Dead) : Case → Case
  | .mk test body => .mk (Expr.sweptOpt d test) (Stmt.sweptList d body)

def Case.sweptList (d : Dead) : List Case → List Case
  | [] => []
  | c :: cs => c.swept d :: Case.sweptList d cs

end

/-! ### Heads of loops over values -/

/-- The head of a loop keeps a declarator, if it is a declaration. -/
def ForHead.IsKept (d : Dead) : ForHead → Prop
  | .decl _ list => ∃ x ∈ list, d.declarator x.site = false
  | .empty | .expr _ => True

/-- What a loop over values or keys declares is not all dead. -/
def Stmt.KeepsHead (d : Dead) : Stmt → Prop
  | .forIn head .. | .forOf head .. => head.IsKept d
  | _ => True

/-- Every loop over values or keys keeps what it declares. -/
def Dead.sparesHeads (d : Dead) : Fold Prop where
  empty := True
  append := And
  ident _ _ := True
  stmt s h := h ∧ s.KeepsHead d

/-! ### No mark passes its slot -/

/-- Where no mark is set before, a walk leaves what is said and no mark, or else the mark alone. -/
def Removal.Retains {α : Type} (w : Walk α) : Option α → Prop
  | some a => w false = (a, false)
  | none => (w false).2 = true

namespace Removal

variable {d : Dead} {w : Walk Stmt} {s : Option Stmt}

theorem ident_removal (id : Ident) (m : Bool) : d.removal.ident id m = ((), m) := rfl

theorem optIdent_removal (id : Option Ident) (m : Bool) : d.removal.optIdent id m = ((), m) := by
  cases id <;> rfl

theorem forM_ident_removal {γ : Type} (f : γ → Ident) (cs : List γ) (m : Bool) :
    (cs.forM fun c => d.removal.ident (f c)) m = ((), m) := by
  induction cs with
  | nil => rfl
  | cons c cs ih => exact ih

theorem take_true : (take : Walk Bool) true = (true, false) := rfl

theorem Retains.slot (h : Retains w s) : Removal.slot (w false).1 (w false).2 = (s.getD .empty, false) := by
  cases s with
  | none =>
    rw [Removal.slot, show (w false).2 = true from h]
    rfl
  | some t =>
    rw [show w false = (t, false) from h]
    rfl

end Removal

variable {d : Dead}

/-- A key that is not computed is left alone. -/
theorem Expr.removeKey_swept {β : Type} {key : Expr} {computed : Bool} (k : Expr → Walk β)
    (h : computed = true → key.remove d.removal false = (key.swept d, false)) :
    (if computed then key.remove d.removal >>= k else pure key >>= k) false =
      k (if computed then key.swept d else key) false := by
  cases computed with
  | false => rfl
  | true =>
    show k (key.remove d.removal false).1 (key.remove d.removal false).2 = _
    rw [h rfl]
    rfl

/-- A declaration sets the mark if it has no declarators left. -/
theorem Declarator.markEmptied_swept {β : Type} {list : List Declarator} (f : List Declarator → β)
    (h : Declarator.removeDecls d.removal list false = (Declarator.sweptDecls d list, false)) :
    (do
      let list ← Declarator.removeDecls d.removal list
      if d.removal.dropsEmpty && list.isEmpty then mark
      return f list : Walk β) false = (f (Declarator.sweptDecls d list), (Declarator.sweptDecls d list).isEmpty) := by
  simp only [run_bind, h]
  cases hempty : (Declarator.sweptDecls d list).isEmpty <;> simp [Dead.removal, mark, run_bind, run_pure]

/-- A declaration of which a declarator is not dead has declarators left. -/
theorem Declarator.sweptDecls_isEmpty {list : List Declarator} (h : ∃ x ∈ list, d.declarator x.site = false) :
    (Declarator.sweptDecls d list).isEmpty = false := by
  induction list with
  | nil => simp at h
  | cons x xs ih =>
    rw [Declarator.sweptDecls]
    split
    · next hx =>
      obtain ⟨y, hy, hdead⟩ := h
      obtain rfl | hy := List.mem_cons.1 hy
      · rw [hx] at hdead
        cases hdead
      · exact ih ⟨y, hy, hdead⟩
    · rfl

mutual

theorem Expr.remove_swept (e : Expr) (h : e.fold d.sparesHeads) : e.remove d.removal false = (e.swept d, false) := by
  match e with
  | .hole | .this | .super | .null | .bool _ | .number .. | .string _ | .regExp .. | .ident _ => rfl
  | .template tag chunks es =>
    simp only [Expr.remove, Expr.swept, run_bind, Expr.removeOpt_swept tag h.1, Expr.removeList_swept es h.2,
      run_pure]
  | .array es | .seq es => simp only [Expr.remove, Expr.swept, run_bind, Expr.removeList_swept es h, run_pure]
  | .object ps => simp only [Expr.remove, Expr.swept, run_bind, Property.removeList_swept ps h, run_pure]
  | .spread e | .unary _ e | .update _ e _ | .await e =>
    simp only [Expr.remove, Expr.swept, run_bind, Expr.remove_swept e h, run_pure]
  | .func f =>
    show (f.remove d.removal >>= fun f => pure (Expr.func f)) false = _
    simp only [Expr.swept, run_bind, Func.remove_swept .own f h, run_pure]
  | .arrow params rest body _ =>
    simp only [Expr.remove, Expr.swept, run_bind, Declarator.removeList_swept .param params h.1,
      Pattern.removeOpt_swept .param rest h.2.1, Expr.remove_swept body h.2.2, run_pure]
  | .arrowBlock params rest body _ =>
    simp only [Expr.remove, Expr.swept, run_bind, Declarator.removeList_swept .param params h.1,
      Pattern.removeOpt_swept .param rest h.2.1, Stmt.removeList_swept body h.2.2, run_pure]
  | .cls c =>
    show (c.remove d.removal >>= fun c => pure (Expr.cls c)) false = _
    simp only [Expr.swept, run_bind, Class.remove_swept .own c h, run_pure]
  | .binary _ x y | .assign _ x y =>
    simp only [Expr.remove, Expr.swept, run_bind, Expr.remove_swept x h.1, Expr.remove_swept y h.2, run_pure]
  | .cond test yes no =>
    simp only [Expr.remove, Expr.swept, run_bind, Expr.remove_swept test h.1, Expr.remove_swept yes h.2.1,
      Expr.remove_swept no h.2.2, run_pure]
  | .call callee args _ | .new callee args =>
    simp only [Expr.remove, Expr.swept, run_bind, Expr.remove_swept callee h.1, Expr.removeList_swept args h.2,
      run_pure]
  | .member object name _ =>
    simp only [Expr.remove, Expr.swept, run_bind, Expr.remove_swept object h.1, ident_removal, run_pure]
  | .index object key _ =>
    simp only [Expr.remove, Expr.swept, run_bind, Expr.remove_swept object h.1, Expr.remove_swept key h.2, run_pure]
  | .yield arg _ => simp only [Expr.remove, Expr.swept, run_bind, Expr.removeOpt_swept arg h, run_pure]

theorem Expr.removeOpt_swept (e : Option Expr) (h : Expr.foldOpt d.sparesHeads e) :
    Expr.removeOpt d.removal e false = (Expr.sweptOpt d e, false) := by
  match e with
  | none => rfl
  | some e => simp only [Expr.removeOpt, Expr.sweptOpt, run_bind, Expr.remove_swept e h, run_pure]

/-- Nothing marks an expression, so none of a list goes. -/
theorem Expr.removeList_swept (es : List Expr) (h : Expr.foldList d.sparesHeads es) :
    Expr.removeList d.removal es false = (Expr.sweptList d es, false) := by
  match es with
  | [] => rfl
  | e :: es =>
    simp only [Expr.removeList, Expr.sweptList, run_bind, Expr.remove_swept e h.1, take_false,
      Expr.removeList_swept es h.2, run_pure, Bool.false_eq_true, if_false]

theorem Property.remove_swept (p : Property) (h : p.fold d.sparesHeads) :
    p.remove d.removal false = (p.swept d, false) := by
  match p with
  | .short id init =>
    simp only [Property.remove, Property.swept, run_bind, ident_removal, Expr.removeOpt_swept init h.2, run_pure]
  | .keyed key kind value computed =>
    have hkey : computed = true → key.remove d.removal false = (key.swept d, false) := by
      rintro rfl
      exact Expr.remove_swept key h.1
    rw [Property.remove, Expr.removeKey_swept _ hkey]
    simp only [Property.swept, run_bind, Expr.remove_swept value h.2, run_pure]
  | .spread e => simp only [Property.remove, Property.swept, run_bind, Expr.remove_swept e h, run_pure]

theorem Property.removeList_swept (ps : List Property) (h : Property.foldList d.sparesHeads ps) :
    Property.removeList d.removal ps false = (Property.sweptList d ps, false) := by
  match ps with
  | [] => rfl
  | p :: ps =>
    simp only [Property.removeList, Property.sweptList, run_bind, Property.remove_swept p h.1,
      Property.removeList_swept ps h.2, run_pure]

theorem Func.remove_swept (kind : BindingKind) (f : Func) (h : f.fold d.sparesHeads kind) :
    f.remove d.removal false = (f.swept d, false) := by
  match f with
  | .mk name params rest body _ _ =>
    simp only [Func.remove, Func.swept, run_bind, optIdent_removal, Declarator.removeList_swept .param params h.2.1,
      Pattern.removeOpt_swept .param rest h.2.2.1, Stmt.removeList_swept body h.2.2.2, run_pure]

theorem Class.remove_swept (kind : BindingKind) (c : Class) (h : c.fold d.sparesHeads kind) :
    c.remove d.removal false = (c.swept d, false) := by
  match c with
  | .mk name superclass body decorators =>
    simp only [Class.remove, Class.swept, run_bind, optIdent_removal, Expr.removeEach_swept decorators h.1,
      Expr.removeOpt_swept superclass h.2.2.1, ClassElement.removeList_swept body h.2.2.2, run_pure]

theorem Expr.removeEach_swept (es : List Expr) (h : Expr.foldList d.sparesHeads es) :
    Expr.removeEach d.removal es false = (Expr.sweptList d es, false) := by
  match es with
  | [] => rfl
  | e :: es =>
    simp only [Expr.removeEach, Expr.sweptList, run_bind, Expr.remove_swept e h.1, Expr.removeEach_swept es h.2,
      run_pure]

theorem ClassElement.remove_swept (e : ClassElement) (h : e.fold d.sparesHeads) :
    e.remove d.removal false = (e.swept d, false) := by
  match e with
  | .field key init computed _ =>
    have hkey : computed = true → key.remove d.removal false = (key.swept d, false) := by
      rintro rfl
      exact Expr.remove_swept key h.1
    rw [ClassElement.remove, Expr.removeKey_swept _ hkey]
    simp only [ClassElement.swept, run_bind, Expr.removeOpt_swept init h.2, run_pure]
  | .method key _ body computed _ =>
    have hkey : computed = true → key.remove d.removal false = (key.swept d, false) := by
      rintro rfl
      exact Expr.remove_swept key h.1
    rw [ClassElement.remove, Expr.removeKey_swept _ hkey]
    simp only [ClassElement.swept, run_bind, Func.remove_swept .own body h.2, run_pure]
  | .block body =>
    simp only [ClassElement.remove, ClassElement.swept, run_bind, Stmt.removeList_swept body h, run_pure]

theorem ClassElement.removeList_swept (es : List ClassElement) (h : ClassElement.foldList d.sparesHeads es) :
    ClassElement.removeList d.removal es false = (ClassElement.sweptList d es, false) := by
  match es with
  | [] => rfl
  | e :: es =>
    simp only [ClassElement.removeList, ClassElement.sweptList, run_bind, ClassElement.remove_swept e h.1,
      ClassElement.removeList_swept es h.2, run_pure]

theorem Pattern.remove_swept (kind : BindingKind) (p : Pattern) (h : p.fold d.sparesHeads kind) :
    p.remove d.removal false = (p.swept d, false) := by
  match p with
  | .hole | .ident _ => rfl
  | .array elems rest =>
    simp only [Pattern.remove, Pattern.swept, run_bind, Declarator.removeList_swept kind elems h.1,
      Pattern.removeOpt_swept kind rest h.2, run_pure]
  | .object props rest =>
    simp only [Pattern.remove, Pattern.swept, run_bind, PatternProp.removeList_swept kind props h.1,
      Pattern.removeOpt_swept kind rest h.2, run_pure]

theorem Pattern.removeOpt_swept (kind : BindingKind) (p : Option Pattern) (h : Pattern.foldOpt d.sparesHeads kind p) :
    Pattern.removeOpt d.removal p false = (Pattern.sweptOpt d p, false) := by
  match p with
  | none => rfl
  | some p => simp only [Pattern.removeOpt, Pattern.sweptOpt, run_bind, Pattern.remove_swept kind p h, run_pure]

theorem Declarator.remove_swept (kind : BindingKind) (x : Declarator) (h : x.fold d.sparesHeads kind) :
    x.remove d.removal false = (x.swept d, false) := by
  match x with
  | .mk _ target init =>
    simp only [Declarator.remove, Declarator.swept, run_bind, Pattern.remove_swept kind target h.1,
      Expr.removeOpt_swept init h.2, run_pure]

theorem Declarator.removeList_swept (kind : BindingKind) (xs : List Declarator)
    (h : Declarator.foldElems d.sparesHeads kind xs) :
    Declarator.removeList d.removal xs false = (Declarator.sweptList d xs, false) := by
  match xs with
  | [] => rfl
  | .mk site target init :: xs =>
    simp only [Declarator.removeList, Declarator.sweptList, run_bind,
      Declarator.remove_swept kind (.mk site target init) h.1, Declarator.removeList_swept kind xs h.2, run_pure]

theorem Declarator.removeDecls_swept (kind : BindingKind) (xs : List Declarator)
    (h : Declarator.foldList d.sparesHeads kind xs) :
    Declarator.removeDecls d.removal xs false = (Declarator.sweptDecls d xs, false) := by
  match xs with
  | [] => rfl
  | x :: xs =>
    show (if d.declarator x.site then Declarator.removeDecls d.removal xs
      else x.remove d.removal >>= fun x => Declarator.removeDecls d.removal xs >>= fun xs => pure (x :: xs)) false = _
    rw [Declarator.sweptDecls]
    split
    · exact Declarator.removeDecls_swept kind xs h.2
    · simp only [run_bind, Declarator.remove_swept kind x h.1, Declarator.removeDecls_swept kind xs h.2, run_pure]

theorem PatternProp.remove_swept (kind : BindingKind) (p : PatternProp) (h : p.fold d.sparesHeads kind) :
    p.remove d.removal false = (p.swept d, false) := by
  match p with
  | .mk key computed _ (.mk site target init) =>
    have hkey : computed = true → key.remove d.removal false = (key.swept d, false) := by
      rintro rfl
      exact Expr.remove_swept key h.1
    rw [PatternProp.remove, Expr.removeKey_swept _ hkey]
    simp only [PatternProp.swept, run_bind, Declarator.remove_swept kind (.mk site target init) h.2, run_pure]

theorem PatternProp.removeList_swept (kind : BindingKind) (ps : List PatternProp)
    (h : PatternProp.foldList d.sparesHeads kind ps) :
    PatternProp.removeList d.removal ps false = (PatternProp.sweptList d ps, false) := by
  match ps with
  | [] => rfl
  | p :: ps =>
    simp only [PatternProp.removeList, PatternProp.sweptList, run_bind, PatternProp.remove_swept kind p h.1,
      PatternProp.removeList_swept kind ps h.2, run_pure]

/-- A statement leaves the mark only where it goes from its slot. -/
theorem Stmt.remove_swept (s : Stmt) (h : s.fold d.sparesHeads) : Retains (s.remove d.removal) (s.swept? d) := by
  match s with
  | .empty | .debugger | .exportAll .. => rfl
  | .block body =>
    simp only [Stmt.remove, Stmt.swept?, Retains, run_bind, Stmt.removeList_swept body h.1, run_pure]
  | .expr e | .throw e | .exportDefaultExpr e =>
    simp only [Stmt.remove, Stmt.swept?, Retains, run_bind, Expr.remove_swept e h.1, run_pure]
  | .cond test yes no =>
    simp only [Stmt.remove, Stmt.swept?, Retains, run_bind, Expr.remove_swept test h.1.1,
      (Stmt.remove_swept yes h.1.2.1).slot, Stmt.removeOpt_swept no h.1.2.2, run_pure]
  | .ret arg => simp only [Stmt.remove, Stmt.swept?, Retains, run_bind, Expr.removeOpt_swept arg h.1, run_pure]
  | .brk label | .cont label =>
    simp only [Stmt.remove, Stmt.swept?, Retains, run_bind, optIdent_removal, run_pure]
  | .labelled label body =>
    simp only [Stmt.remove, Stmt.swept?, Retains, run_bind, ident_removal, (Stmt.remove_swept body h.1.2).slot,
      run_pure]
  | .while test body =>
    simp only [Stmt.remove, Stmt.swept?, Retains, run_bind, Expr.remove_swept test h.1.1,
      (Stmt.remove_swept body h.1.2).slot, run_pure]
  | .doWhile body test =>
    simp only [Stmt.remove, Stmt.swept?, Retains, run_bind, (Stmt.remove_swept body h.1.1).slot,
      Expr.remove_swept test h.1.2, run_pure]
  | .for head test update body =>
    simp only [Stmt.remove, Stmt.swept?, Retains, run_bind, ForHead.headSlot_swept head h.1.1,
      Expr.removeOpt_swept test h.1.2.1, Expr.removeOpt_swept update h.1.2.2.1,
      (Stmt.remove_swept body h.1.2.2.2).slot, run_pure]
  | .forIn head source body =>
    simp only [Stmt.remove, Stmt.swept?, Retains, run_bind, ForHead.remove_swept head h.1.1 h.2,
      Expr.remove_swept source h.1.2.1, (Stmt.remove_swept body h.1.2.2).slot, run_pure]
  | .forOf head source body _ =>
    simp only [Stmt.remove, Stmt.swept?, Retains, run_bind, ForHead.remove_swept head h.1.1 h.2,
      Expr.remove_swept source h.1.2.1, (Stmt.remove_swept body h.1.2.2).slot, run_pure]
  | .switch subject cases =>
    simp only [Stmt.remove, Stmt.swept?, Retains, run_bind, Expr.remove_swept subject h.1.1,
      Case.removeList_swept cases h.1.2, run_pure]
  | .tryCatch body param handler finalizer =>
    simp only [Stmt.remove, Stmt.swept?, Retains, run_bind, Stmt.removeList_swept body h.1.1,
      Pattern.removeOpt_swept .caught param h.1.2.1, Stmt.removeList_swept handler h.1.2.2.1,
      Stmt.removeOptList_swept finalizer h.1.2.2.2, run_pure]
  | .tryFinally body finalizer =>
    simp only [Stmt.remove, Stmt.swept?, Retains, run_bind, Stmt.removeList_swept body h.1.1,
      Stmt.removeList_swept finalizer h.1.2, run_pure]
  | .decl kind list =>
    have hlist := Declarator.removeDecls_swept kind.bindingKind list h.1
    rw [Stmt.swept?, Stmt.remove]
    split
    · next hempty =>
      rw [Retains, Declarator.markEmptied_swept _ hlist]
      exact hempty
    · next hempty =>
      rw [Retains, Declarator.markEmptied_swept _ hlist]
      exact congrArg _ (Bool.eq_false_iff.2 hempty)
  | .func f =>
    show Retains (if d.func f then mark >>= fun _ => pure (Stmt.func f)
      else f.remove d.removal >>= fun f => pure (Stmt.func f)) _
    rw [Stmt.swept?]
    split
    · rfl
    · simp only [Retains, run_bind, Func.remove_swept .func f h.1, run_pure]
  | .cls c =>
    show Retains (if d.cls c then mark >>= fun _ => pure (Stmt.cls c)
      else c.remove d.removal >>= fun c => pure (Stmt.cls c)) _
    rw [Stmt.swept?]
    split
    · rfl
    · simp only [Retains, run_bind, Class.remove_swept .cls c h.1, run_pure]
  | .importDecl specs _ =>
    simp only [Stmt.remove, Stmt.swept?, Retains, run_bind, forM_ident_removal, run_pure]
  | .exportNames specs _ =>
    simp only [Stmt.remove, Stmt.swept?, Retains, run_bind, forM_ident_removal, run_pure]
  | .exportDecl decl | .exportDefault decl =>
    simp only [Stmt.remove, Stmt.swept?, Retains, run_bind, (Stmt.remove_swept decl h.1).slot, run_pure]

theorem Stmt.removeOpt_swept (s : Option Stmt) (h : Stmt.foldOpt d.sparesHeads s) :
    Stmt.removeOpt d.removal s false = (Stmt.sweptOpt d s, false) := by
  match s with
  | none => rfl
  | some s =>
    simp only [Stmt.removeOpt, Stmt.sweptOpt, run_bind, (Stmt.remove_swept s h).slot, run_pure]

theorem Stmt.removeList_swept (ss : List Stmt) (h : Stmt.foldList d.sparesHeads ss) :
    Stmt.removeList d.removal ss false = (Stmt.sweptList d ss, false) := by
  match ss with
  | [] => rfl
  | s :: ss =>
    have hs := Stmt.remove_swept s h.1
    simp only [Stmt.removeList, Stmt.sweptList, run_bind]
    cases hgone : s.swept? d with
    | none =>
      rw [hgone] at hs
      rw [show (s.remove d.removal false).2 = true from hs]
      simp only [take_true, Stmt.removeList_swept ss h.2, run_pure, if_true, Option.toList, List.nil_append]
    | some t =>
      rw [hgone] at hs
      rw [show s.remove d.removal false = (t, false) from hs]
      simp only [take_false, Stmt.removeList_swept ss h.2, run_pure, Bool.false_eq_true, if_false, Option.toList,
        List.cons_append, List.nil_append]

theorem Stmt.removeOptList_swept (ss : Option (List Stmt)) (h : Stmt.foldOptList d.sparesHeads ss) :
    Stmt.removeOptList d.removal ss false = (Stmt.sweptOptList d ss, false) := by
  match ss with
  | none => rfl
  | some ss =>
    simp only [Stmt.removeOptList, Stmt.sweptOptList, run_bind, Stmt.removeList_swept ss h, run_pure]

/-- The slot of a loop takes the mark of the declaration in it. -/
theorem ForHead.headSlot_swept (head : ForHead) (h : head.fold d.sparesHeads) :
    headSlot (head.remove d.removal false).1 (head.remove d.removal false).2 = (head.swept d, false) := by
  match head with
  | .empty => rfl
  | .decl kind list =>
    have hlist := Declarator.removeDecls_swept kind.bindingKind list h
    rw [ForHead.remove, ForHead.swept, Declarator.markEmptied_swept _ hlist]
    cases (Declarator.sweptDecls d list).isEmpty <;> rfl
  | .expr e =>
    simp only [ForHead.remove, ForHead.swept, run_bind, Expr.remove_swept e h, run_pure]
    rfl

/-- The head of a loop over values or keys stands in no slot, but it sets no mark either. -/
theorem ForHead.remove_swept (head : ForHead) (h : head.fold d.sparesHeads) (hk : head.IsKept d) :
    head.remove d.removal false = (head.swept d, false) := by
  match head with
  | .empty => rfl
  | .decl kind list =>
    have hlist := Declarator.removeDecls_swept kind.bindingKind list h
    have hleft := Declarator.sweptDecls_isEmpty hk
    rw [ForHead.remove, ForHead.swept, Declarator.markEmptied_swept _ hlist, hleft]
    rfl
  | .expr e => simp only [ForHead.remove, ForHead.swept, run_bind, Expr.remove_swept e h, run_pure]

theorem Case.remove_swept (c : Case) (h : c.fold d.sparesHeads) : c.remove d.removal false = (c.swept d, false) := by
  match c with
  | .mk test body =>
    simp only [Case.remove, Case.swept, run_bind, Expr.removeOpt_swept test h.1, Stmt.removeList_swept body h.2,
      run_pure]

theorem Case.removeList_swept (cs : List Case) (h : Case.foldList d.sparesHeads cs) :
    Case.removeList d.removal cs false = (Case.sweptList d cs, false) := by
  match cs with
  | [] => rfl
  | c :: cs =>
    simp only [Case.removeList, Case.sweptList, run_bind, Case.remove_swept c h.1, Case.removeList_swept cs h.2,
      run_pure]

end

/-- A sweep leaves of a program what is left of its statements, and no mark; if nothing is dead it leaves all. -/
theorem Program.sweep_swept {d : Dead} {p : Program} (h : p.fold d.sparesHeads) :
    p.sweep d = { body := if d.isEmpty then p.body else Stmt.sweptList d p.body } ∧
      Stmt.removeList d.removal p.body false = (Stmt.sweptList d p.body, false) := by
  have hbody := Stmt.removeList_swept p.body h
  refine ⟨?_, hbody⟩
  unfold Program.sweep
  split
  · rfl
  · exact congrArg (Program.mk ·.1) hbody

/-- A declarator without an initializer, whose site is that of its name. -/
def sampleDeclarator (name : String) (site : Site) (init : Option Expr) : Declarator :=
  .mk site (.ident { name, site }) init

/-- `function f() {} let a = () => { var x; }; for (let i = a; ; ) ; for (const k of a) debugger;` -/
def sampleUnswept : Program where
  body :=
    [.func (.mk (some { name := "f", site := 1 }) [] none [] false false),
      .decl .let_ [sampleDeclarator "a" 2 (some (.arrowBlock [] none [.decl .var [sampleDeclarator "x" 3 none]] false))],
      .for (.decl .let_ [sampleDeclarator "i" 4 (some (.ident { name := "a", site := 5 }))]) none none .empty,
      .forOf (.decl .const [sampleDeclarator "k" 6 none]) (.ident { name := "a", site := 7 }) .debugger false]

/-- The function, `x` and `i` are dead. -/
def sampleDead : Dead where
  isEmpty := false
  declarator := fun σ => σ = 3 || σ = 4
  func := fun f => f.name.any (·.site = 1)
  cls := fun _ => false
  alive h := nomatch h

theorem Program.sweep_swept_sample : sampleUnswept.fold sampleDead.sparesHeads ∧
    sampleUnswept.sweep sampleDead =
      { body :=
          [.decl .let_ [sampleDeclarator "a" 2 (some (.arrowBlock [] none [] false))],
            .for .empty none none .empty,
            .forOf (.decl .const [sampleDeclarator "k" 6 none]) (.ident { name := "a", site := 7 }) .debugger
              false] } := by
  have h : sampleUnswept.fold sampleDead.sparesHeads := by
    refine ⟨⟨⟨trivial, trivial, trivial, trivial⟩, trivial⟩, ⟨⟨⟨trivial, trivial, trivial, ?_⟩, trivial⟩, trivial⟩,
      ⟨⟨⟨⟨trivial, trivial⟩, trivial⟩, trivial, trivial, ⟨trivial, trivial⟩⟩, trivial⟩,
      ⟨⟨⟨⟨trivial, trivial⟩, trivial⟩, trivial, ⟨trivial, trivial⟩⟩, _, List.mem_singleton_self _, rfl⟩, trivial⟩
    exact ⟨⟨⟨⟨trivial, trivial⟩, trivial⟩, trivial⟩, trivial⟩
  exact ⟨h, (Program.sweep_swept h).1⟩

end Deadwood
