import Deadwood.Elimination.Traversal
import Deadwood.Proofs.Rules
import Mathlib.Logic.Basic

/-!
# What a pass does to the result of a fold

A property of one pass is said of the result of a fold before and after it, and of the states it starts
and ends in.  `Visits` lists what has to be shown of such a property: that it goes along with the parts of
syntax, and that every rule keeps it.  Then it holds of the pass on every piece of syntax.
-/

namespace Deadwood

open Elimination

/-! ### Declarators -/

namespace Declarator

variable {s : State} {site : Site} {target : Pattern} {init : Option Expr}

theorem eliminate_dead (h : s.isDead site = true) :
    (mk site target init).eliminate s = (mk site target init, s) := by
  simp only [eliminate, run_bind, run_get, h, if_true, run_pure]

theorem eliminate_trimmed (h : s.isDead site = false)
    (ht : (target.eliminate s).2.trimmed.contains site = true) :
    (mk site target init).eliminate s =
      (mk site (target.eliminate s).1 none,
        (defineVariable (mk site (target.eliminate s).1 none) (target.eliminate s).2).2) := by
  simp only [eliminate, run_bind, run_get, h, ht, if_true, run_pure, Bool.false_eq_true, if_false]

theorem eliminate_alive (h : s.isDead site = false)
    (ht : (target.eliminate s).2.trimmed.contains site = false) :
    (mk site target init).eliminate s =
      (mk site (target.eliminate s).1 (Expr.eliminateOpt .value init (target.eliminate s).2).1,
        (defineVariable
          (mk site (target.eliminate s).1 (Expr.eliminateOpt .value init (target.eliminate s).2).1)
          (Expr.eliminateOpt .value init (target.eliminate s).2).2).2) := by
  simp only [eliminate, run_bind, run_get, h, ht, run_pure, Bool.false_eq_true, if_false]

end Declarator

/-! ### Heads are kept -/

theorem Func.eliminate_head (f : Func) (s : State) : (f.eliminate s).1.head = f.head := by
  cases f
  rfl

theorem ClassElement.eliminateList_head (es : List ClassElement) (s : State) :
    (ClassElement.eliminateList es s).1.map ClassElement.head = es.map ClassElement.head := by
  induction es generalizing s with
  | nil => rfl
  | cons e es ih =>
    refine List.cons_eq_cons.2 ⟨?_, ih _⟩
    cases e with
    | field key init computed => cases computed <;> rfl
    | method key kind body computed => cases computed <;> rfl
    | block body => rfl

theorem Class.eliminate_head (c : Class) (s : State) : (c.eliminate s).1.head = c.head := by
  cases c with
  | mk name superclass body decorators =>
    exact congrArg (Class.mk name none · []) (ClassElement.eliminateList_head body _)

theorem Pattern.eliminate_head (p : Pattern) (s : State) : (p.eliminate s).1.head = p.head := by
  cases p <;> rfl

theorem Declarator.eliminate_head (d : Declarator) (s : State) : (d.eliminate s).1.head = d.head := by
  cases d with
  | mk site target init =>
    cases h : s.isDead site with
    | true => rw [Declarator.eliminate_dead h]
    | false =>
      cases ht : (target.eliminate s).2.trimmed.contains site with
      | true => rw [Declarator.eliminate_trimmed h ht]; rfl
      | false => rw [Declarator.eliminate_alive h ht]; rfl

theorem Declarator.eliminateList_head (ds : List Declarator) (s : State) :
    (Declarator.eliminateList ds s).1.map Declarator.head = ds.map Declarator.head := by
  induction ds generalizing s with
  | nil => rfl
  | cons d ds ih => exact List.cons_eq_cons.2 ⟨d.eliminate_head s, ih _⟩

theorem Stmt.eliminate_head (t : Stmt) (s : State) : (t.eliminate s).1.head = t.head := by
  cases t with
  | func f =>
    cases f with
    | mk name params rest body async generator => cases name <;> rfl
  | cls c => exact congrArg Stmt.cls (c.eliminate_head s)
  | _ => rfl

theorem Stmt.eliminate_declarators (t : Stmt) (s : State) :
    (t.eliminate s).1.declarators.map Declarator.head = t.declarators.map Declarator.head := by
  cases t with
  | decl kind ds => exact Declarator.eliminateList_head ds s
  | func f =>
    cases f with
    | mk name params rest body async generator => cases name <;> rfl
  | cls c =>
    cases c with
    | mk name superclass body decorators => cases name <;> rfl
  | _ => rfl

/-! ### Names of patterns are kept -/

mutual

theorem Pattern.eliminate_names (p : Pattern) (s : State) : (p.eliminate s).1.names = p.names := by
  match p with
  | .hole | .ident _ => rfl
  | .array elems rest =>
    exact congrArg₂ (· ++ ·) (Declarator.eliminateList_names elems s) (Pattern.eliminateOpt_names rest _)
  | .object props rest =>
    exact congrArg₂ (· ++ ·) (PatternProp.eliminateList_names props s) (Pattern.eliminateOpt_names rest _)

theorem Pattern.eliminateOpt_names (p : Option Pattern) (s : State) :
    Pattern.optNames (Pattern.eliminateOpt p s).1 = Pattern.optNames p := by
  match p with
  | none => rfl
  | some p => exact Pattern.eliminate_names p s

theorem Declarator.eliminate_names (d : Declarator) (s : State) : (d.eliminate s).1.names = d.names := by
  match d with
  | .mk site target init =>
    have ht := Pattern.eliminate_names target s
    cases h : s.isDead site with
    | true => rw [Declarator.eliminate_dead h]
    | false =>
      cases htr : (target.eliminate s).2.trimmed.contains site with
      | true => rw [Declarator.eliminate_trimmed h htr]; exact ht
      | false => rw [Declarator.eliminate_alive h htr]; exact ht

theorem Declarator.eliminateList_names (ds : List Declarator) (s : State) :
    Declarator.listNames (Declarator.eliminateList ds s).1 = Declarator.listNames ds := by
  match ds with
  | [] => rfl
  | d :: ds =>
    exact congrArg₂ (· ++ ·) (Declarator.eliminate_names d s) (Declarator.eliminateList_names ds _)

theorem PatternProp.eliminate_names (p : PatternProp) (s : State) :
    (p.eliminate s).1.names = p.names := by
  match p with
  | .mk key computed _ value =>
    have hv := Declarator.eliminate_names value
    cases computed <;> exact hv _

theorem PatternProp.eliminateList_names (ps : List PatternProp) (s : State) :
    PatternProp.listNames (PatternProp.eliminateList ps s).1 = PatternProp.listNames ps := by
  match ps with
  | [] => rfl
  | p :: ps =>
    exact congrArg₂ (· ++ ·) (PatternProp.eliminate_names p s) (PatternProp.eliminateList_names ps _)

end

/-! ### Visits -/

/-- Where a piece of syntax stands. -/
inductive Place
  /-- It is a part of an expression or of a declaration. -/
  | part
  /-- It stands in a list of statements, where a dead declaration is passed over. -/
  | list
  /-- It stands alone as a part of a statement. -/
  | slot
deriving DecidableEq

/-- Where the parts of a statement stand. -/
def Stmt.place : Stmt → Place
  | .decl .. | .func _ | .cls _ => .part
  | .block _ | .switch .. | .tryCatch .. | .tryFinally .. => .list
  | _ => .slot

variable {α : Type}

/-- `V m a s b t` says that a piece of syntax whose fold is `a`, and which stands where `m` says, has become one
whose fold is `b`, and the state `s` has become `t`.  Of a statement `S` says so where its parts have been
visited, and `R` where the rules have been applied to it as well. -/
structure Visits (F : Fold α) (V : Place → α → State → α → State → Prop) (S R : α → State → α → State → Prop) :
    Prop where
  lawful : F.Lawful
  empty : ∀ {m s}, V m F.empty s F.empty s
  ident : ∀ role id {s}, V .part (F.ident role id) s (F.ident role id) s
  hole : ∀ {s}, V .part F.hole s F.hole s
  append : ∀ {m a b a' b' s t u}, V m a s a' t → V m b t b' u → V m (F.append a b) s (F.append a' b') u
  part : ∀ {m a b s t}, V .part a s b t → V m a s b t
  expr : ∀ {e e' a a' s t}, (∀ f, e = .func f → a = f.fold F .own) →
    (∀ c, e = .cls c → a = c.fold F .own) → e.head = e'.head → V .list a s a' t →
    V .part (F.expr e a) s (F.expr e' a') t
  stmt : ∀ {x x' a a' s t}, x.head = x'.head → V x.place a s a' t → S (F.stmt x a) s (F.stmt x' a') t
  property : ∀ {p p' a a' s t}, p.Becomes p' → V .part a s a' t →
    V .part (F.property p a) s (F.property p' a') t
  inlineExpr : ∀ id s,
    V .part ((Expr.ident id).fold F) s (((inline id s).1.getD (.ident id)).fold F) (inline id s).2
  inlineProperty : ∀ id s,
    V .part ((Property.short id none).fold F) s ((Property.inlined id (inline id s).1).fold F) (inline id s).2
  conditional : ∀ role {test yes no test' yes' no' s t},
    V .part ((Expr.cond test yes no).fold F) s ((Expr.cond test' yes' no').fold F) t →
    V .part ((Expr.cond test yes no).fold F) s ((foldConditional role test' yes' no' t).1.fold F)
      (foldConditional role test' yes' no' t).2
  deadDeclarator : ∀ kind {d : Declarator} {s}, s.isDead d.site = true →
    V .part (d.fold F kind) s (d.fold F kind) s
  deadStmt : ∀ {x : Stmt} {s}, s.isDeadStmt x = true → V .list (x.fold F) s (x.fold F) s
  declarator : ∀ kind {site target target' init init' s t u}, s.isDead site = false →
    t.trimmed.contains site = false → target.head = target'.head → target.names = target'.names →
    init.isSome = init'.isSome → V .part (target.fold F kind) s (target'.fold F kind) t →
    V .part (Expr.foldOpt F init) t (Expr.foldOpt F init') u →
    V .part ((Declarator.mk site target init).fold F kind) s
      ((Declarator.mk site target' init').fold F kind)
      (defineVariable (.mk site target' init') u).2
  trimmed : ∀ kind {site target target' init s t}, s.isDead site = false →
    t.trimmed.contains site = true → target.head = target'.head → target.names = target'.names →
    V .part (target.fold F kind) s (target'.fold F kind) t →
    V .part ((Declarator.mk site target init).fold F kind) s ((Declarator.mk site target' none).fold F kind)
      (defineVariable (.mk site target' none) t).2
  deadElement : ∀ kind {d : Declarator} {s}, s.isDead d.site = true →
    V .part (d.foldElem F kind) s (d.foldElem F kind) s
  element : ∀ kind {site target target' init init' s t u}, target.head = target'.head →
    target.names = target'.names → init.isSome = init'.isSome →
    V .part (target.fold F kind) s (target'.fold F kind) t →
    V .part (Expr.foldOpt F init) t (Expr.foldOpt F init') u →
    V .part ((Declarator.mk site target init).foldElem F kind) s
      ((Declarator.mk site target' init').foldElem F kind)
      (defineVariable (.mk site target' init') u).2
  trimmedElement : ∀ kind {site target target' init s t}, target.head = target'.head →
    target.names = target'.names → V .part (target.fold F kind) s (target'.fold F kind) t →
    V .part ((Declarator.mk site target init).foldElem F kind) s
      ((Declarator.mk site target' none).foldElem F kind) (defineVariable (.mk site target' none) t).2
  funcDecl : ∀ {f f' s t}, f.head = f'.head → V .list (f.fold F .func) s (f'.fold F .func) t →
    S ((Stmt.func f).fold F) s ((Stmt.func f').fold F) (defineFunc f' t).2
  clsDecl : ∀ {c c' s t}, c.head = c'.head → V .list (c.fold F .cls) s (c'.fold F .cls) t →
    S ((Stmt.cls c).fold F) s ((Stmt.cls c').fold F) (defineClass c' t).2
  loopHead : ∀ kind {list list' s t}, list.map Declarator.head = list'.map Declarator.head →
    V .slot (Declarator.foldList F kind list) s (Declarator.foldList F kind list') t →
    V .slot (Declarator.foldList F kind list) s (Declarator.foldList F kind list')
      (removeDeclarators list' t).2
  entered : ∀ {x : Stmt} {b s t}, (removeDeclaration x s).1 = false →
    R (x.fold F) (removeDeclaration x s).2 b t → R (x.fold F) s b t
  removed : ∀ {x : Stmt} {s}, (removeDeclaration x s).1 = true →
    R (x.fold F) s F.empty (removeDeclaration x s).2 ∧
      R (x.fold F) s (Stmt.empty.fold F) (removeDeclaration x s).2
  finished : ∀ {x y : Stmt} {s t}, x.head = y.head →
    x.declarators.map Declarator.head = y.declarators.map Declarator.head →
    S (x.fold F) s (y.fold F) t →
    R (x.fold F) s (Stmt.foldList F (finish y t).1) (finish y t).2 ∧
      R (x.fold F) s ((asOne (finish y t).1).fold F) (finish y t).2
  unfinished : ∀ {x : Stmt} {b s t}, S (x.fold F) s b t → R (x.fold F) s b t
  slot : ∀ {x : Stmt} {b s t}, R (x.fold F) s b t → V .slot (x.fold F) s b t
  kept : ∀ {x : Stmt} {b s t}, s.isDeadStmt x = false → R (x.fold F) s b t → V .list (x.fold F) s b t
  listed : ∀ {x : Stmt} {b s t}, V .list (x.fold F) (list x s).2 b t → V .list (x.fold F) s b t
  pruned : ∀ {x : Stmt} {s}, s.NeverUsed x → V .list (x.fold F) s (Stmt.foldList F (prune x s).1) (prune x s).2
  trimming : ∀ kind {ds b s t},
    (ds.any fun d => !s.isDead d.site && s.bindsUsed d.target) = true →
    S ((Stmt.decl kind ds).fold F) (ds.forM (trimDeclarator kind) s).2 b t →
    V .list ((Stmt.decl kind ds).fold F) s b t
  vanished : ∀ {s}, V .list (Stmt.empty.fold F) s F.empty s
  filtered : ∀ {a ts s t}, V .list a s (Stmt.foldList F ts) t →
    V .list a s (Stmt.foldList F (ts.filter fun y => !y.isEmpty)) t

variable {F : Fold α} {V : Place → α → State → α → State → Prop} {S R : α → State → α → State → Prop}

namespace Visits

theorem optIdent (h : Visits F V S R) (role : Role) (id : Option Ident) {s : State} :
    V .part (F.optIdent role id) s (F.optIdent role id) s := by
  cases id with
  | none => exact h.empty
  | some id => exact h.ident role id

theorem all (h : Visits F V S R) {γ : Type} (role : Role) (f : γ → Ident) (cs : List γ) {s : State} :
    V .part (F.all (fun c => F.ident role (f c)) cs) s (F.all (fun c => F.ident role (f c)) cs) s := by
  induction cs with
  | nil => exact h.empty
  | cons c cs ih => exact h.append (h.ident role (f c)) ih

/-- An expression without statements of its own. -/
theorem ofParts (h : Visits F V S R) {e e' : Expr} {a a' : α} {s t : State} (hf : ∀ f, e = .func f → a = f.fold F .own)
    (hc : ∀ c, e = .cls c → a = c.fold F .own) (he : e.head = e'.head) (hv : V .part a s a' t) :
    V .part (F.expr e a) s (F.expr e' a') t := h.expr hf hc he (h.part hv)

variable {x : Stmt}

theorem reduced (h : Visits F V S R)
    (hx : ∀ s, S (x.fold F) s ((x.eliminate s).1.fold F) (x.eliminate s).2) (s : State) :
    R (x.fold F) s (Stmt.foldList F (reduce x x.eliminate s).1) (reduce x x.eliminate s).2 ∧
      R (x.fold F) s ((asOne (reduce x x.eliminate s).1).fold F) (reduce x x.eliminate s).2 := by
  cases hr : (removeDeclaration x s).1 with
  | true =>
    rw [reduce_gone hr]
    exact h.removed hr
  | false =>
    rw [reduce_kept hr]
    have hf := h.finished (x.eliminate_head _).symm (x.eliminate_declarators _).symm
      (hx (removeDeclaration x s).2)
    exact ⟨h.entered hr hf.1, h.entered hr hf.2⟩

theorem inSlot (h : Visits F V S R)
    (hx : ∀ s, S (x.fold F) s ((x.eliminate s).1.fold F) (x.eliminate s).2) (s : State) :
    V .slot (x.fold F) s ((reduceSlot x x.eliminate s).1.fold F) (reduceSlot x x.eliminate s).2 :=
  h.slot (h.reduced hx s).2

theorem foldList_single (h : Visits F V S R) (y : Stmt) : Stmt.foldList F [y] = y.fold F :=
  h.lawful.empty_right _

theorem isDeadStmt_list (x : Stmt) (s : State) : (list x s).2.isDeadStmt = s.isDeadStmt := by
  cases x <;> rfl

theorem inList (h : Visits F V S R) (past : Bool)
    (hx : ∀ s, S (x.fold F) s ((x.eliminate s).1.fold F) (x.eliminate s).2) (s : State) :
    V .list (x.fold F) s
      (Stmt.foldList F ((reduceListed past x x.eliminate s).1.filter fun y => !y.isEmpty))
      (reduceListed past x x.eliminate s).2 := by
  refine h.filtered ?_
  rcases reduceListed_cases past x x.eliminate s with
    ⟨hd, he⟩ | ⟨hd, he | he | ⟨rfl, he⟩ | he | ⟨kind, ds, rfl, hu, he⟩ | ⟨hu, he⟩⟩
  · rw [he, h.foldList_single]
    exact h.deadStmt hd
  · rw [he]
    exact h.listed (h.kept (by rw [isDeadStmt_list, hd]) (h.reduced hx _).1)
  · rw [he]
    exact h.kept hd (h.reduced hx s).1
  · rw [he]
    exact h.vanished
  · rw [he, h.foldList_single]
    exact h.kept hd (h.unfinished (hx s))
  · rw [he, h.foldList_single]
    exact h.trimming kind hu (hx _)
  · rw [he]
    exact h.pruned hu

end Visits

mutual

theorem Expr.eliminate_visits (h : Visits F V S R) (role : OperandRole) (e : Expr) (s : State) :
    V .part (e.fold F) s ((e.eliminate role s).1.fold F) (e.eliminate role s).2 := by
  match e with
  | .hole | .this | .super | .null | .bool _ | .number .. | .string _ | .regExp .. =>
    exact h.ofParts nofun nofun rfl h.empty
  | .ident id => exact h.inlineExpr id s
  | .template tag _ es =>
    refine h.ofParts nofun nofun ?_ (h.append (Expr.eliminateOpt_visits h _ tag s) (Expr.eliminateList_visits h es _))
    cases tag <;> rfl
  | .array es => exact h.ofParts nofun nofun rfl (Expr.eliminateList_visits h es s)
  | .object ps => exact h.ofParts nofun nofun rfl (Property.eliminateList_visits h ps s)
  | .spread e => exact h.ofParts nofun nofun rfl (Expr.eliminate_visits h _ e s)
  | .func f =>
    exact h.expr (by rintro _ ⟨⟩; rfl) nofun (congrArg Expr.func (f.eliminate_head s).symm)
      (Func.eliminate_visits h _ f s)
  | .arrow params rest body _ =>
    exact h.ofParts nofun nofun rfl (h.append (Declarator.eliminateElems_visits h _ params s)
      (h.append (Pattern.eliminateOpt_visits h _ rest _) (Expr.eliminate_visits h _ body _)))
  | .arrowBlock params rest body _ =>
    exact h.expr nofun nofun rfl (h.append (h.part (Declarator.eliminateElems_visits h _ params s))
      (h.append (h.part (Pattern.eliminateOpt_visits h _ rest _)) (Stmt.eliminateList_visits h _ body _)))
  | .cls c =>
    exact h.expr nofun (by rintro _ ⟨⟩; rfl) (congrArg Expr.cls (c.eliminate_head s).symm)
      (Class.eliminate_visits h _ c s)
  | .unary op e =>
    rw [Expr.eliminate]
    split
    next hop =>
      cases e with
      | ident id => exact h.ofParts nofun nofun rfl (h.ofParts nofun nofun rfl (h.ident _ id))
      | _ => simp [Expr.isIdent] at hop
    · exact h.ofParts nofun nofun rfl (Expr.eliminate_visits h _ e s)
  | .update _ e _ => exact h.ofParts nofun nofun rfl (Expr.eliminate_visits h _ e s)
  | .binary _ l r =>
    exact h.ofParts nofun nofun rfl (h.append (Expr.eliminate_visits h _ l s) (Expr.eliminate_visits h _ r _))
  | .assign _ l r =>
    exact h.ofParts nofun nofun rfl (h.append (Expr.eliminate_visits h _ l s) (Expr.eliminate_visits h _ r _))
  | .cond test yes no =>
    exact h.conditional role (h.ofParts nofun nofun rfl (h.append (Expr.eliminate_visits h _ test s)
      (h.append (Expr.eliminate_visits h _ yes _) (Expr.eliminate_visits h _ no _))))
  | .seq es => exact h.ofParts nofun nofun rfl (Expr.eliminateList_visits h es s)
  | .call callee args _ =>
    exact h.ofParts nofun nofun rfl
      (h.append (Expr.eliminate_visits h _ callee s) (Expr.eliminateList_visits h args _))
  | .new callee args =>
    exact h.ofParts nofun nofun rfl
      (h.append (Expr.eliminate_visits h _ callee s) (Expr.eliminateList_visits h args _))
  | .member object _ _ => exact h.ofParts nofun nofun rfl (h.append (Expr.eliminate_visits h _ object s) (h.ident _ _))
  | .index object key _ =>
    exact h.ofParts nofun nofun rfl (h.append (Expr.eliminate_visits h _ object s) (Expr.eliminate_visits h _ key _))
  | .await e => exact h.ofParts nofun nofun rfl (Expr.eliminate_visits h _ e s)
  | .yield arg _ =>
    refine h.ofParts nofun nofun ?_ (Expr.eliminateOpt_visits h _ arg s)
    cases arg <;> rfl

theorem Expr.eliminateOpt_visits (h : Visits F V S R) (role : OperandRole) (e : Option Expr) (s : State) :
    V .part (Expr.foldOpt F e) s (Expr.foldOpt F (Expr.eliminateOpt role e s).1)
      (Expr.eliminateOpt role e s).2 := by
  match e with
  | none => exact h.empty
  | some e => exact Expr.eliminate_visits h role e s

theorem Expr.eliminateList_visits (h : Visits F V S R) (es : List Expr) (s : State) :
    V .part (Expr.foldList F es) s (Expr.foldList F (Expr.eliminateList es s).1)
      (Expr.eliminateList es s).2 := by
  match es with
  | [] => exact h.empty
  | e :: es => exact h.append (Expr.eliminate_visits h _ e s) (Expr.eliminateList_visits h es _)

theorem Property.eliminate_visits (h : Visits F V S R) (p : Property) (s : State) :
    V .part (p.fold F) s ((p.eliminate s).1.fold F) (p.eliminate s).2 := by
  match p with
  | .short id none =>
    have hi := h.inlineProperty id s
    simp only [Property.eliminate, run_bind]
    cases hv : (inline id s).1 with
    | none => rw [hv] at hi; exact hi
    | some value => rw [hv] at hi; exact hi
  | .short id (some init) =>
    exact h.property (.short rfl) (h.append (h.ident _ id) (Expr.eliminate_visits h _ init s))
  | .keyed key kind value computed =>
    have hv := Expr.eliminate_visits h .value value
    have hk := Expr.eliminate_visits h .value key s
    have hb : ∀ s f, value = .func f → ∃ g, (value.eliminate .value s).1 = .func g := by
      rintro s f rfl
      exact ⟨_, rfl⟩
    cases computed with
    | false => exact h.property (.keyed kind false (hb _)) (h.append h.empty (hv _))
    | true => exact h.property (.keyed kind true (hb _)) (h.append hk (hv _))
  | .spread e => exact h.property .spread (Expr.eliminate_visits h _ e s)

theorem Property.eliminateList_visits (h : Visits F V S R) (ps : List Property) (s : State) :
    V .part (Property.foldList F ps) s (Property.foldList F (Property.eliminateList ps s).1)
      (Property.eliminateList ps s).2 := by
  match ps with
  | [] => exact h.empty
  | p :: ps => exact h.append (Property.eliminate_visits h p s) (Property.eliminateList_visits h ps _)

theorem Func.eliminate_visits (h : Visits F V S R) (kind : BindingKind) (f : Func) (s : State) :
    V .list (f.fold F kind) s ((f.eliminate s).1.fold F kind) (f.eliminate s).2 := by
  match f with
  | .mk name params rest body async generator =>
    exact h.append (h.part (h.optIdent _ name)) (h.append (h.part (Declarator.eliminateElems_visits h _ params s))
      (h.append (h.part (Pattern.eliminateOpt_visits h _ rest _)) (Stmt.eliminateList_visits h _ body _)))

theorem Class.eliminate_visits (h : Visits F V S R) (kind : BindingKind) (c : Class) (s : State) :
    V .list (c.fold F kind) s ((c.eliminate s).1.fold F kind) (c.eliminate s).2 := by
  match c with
  | .mk name superclass body decorators =>
    exact h.append (h.part (Expr.eliminateList_visits h decorators s)) (h.append (h.part (h.optIdent _ name))
      (h.append (h.part (Expr.eliminateOpt_visits h _ superclass _)) (ClassElement.eliminateList_visits h body _)))

theorem ClassElement.eliminate_visits (h : Visits F V S R) (e : ClassElement) (s : State) :
    V .list (e.fold F) s ((e.eliminate s).1.fold F) (e.eliminate s).2 := by
  match e with
  | .field key init computed _ =>
    have hi := Expr.eliminateOpt_visits h .value init
    have hk := Expr.eliminate_visits h .value key s
    cases computed with
    | false => exact h.append h.empty (h.part (hi _))
    | true => exact h.append (h.part hk) (h.part (hi _))
  | .method key _ body computed _ =>
    have hb := Func.eliminate_visits h .own body
    have hk := Expr.eliminate_visits h .value key s
    cases computed with
    | false => exact h.append h.empty (hb _)
    | true => exact h.append (h.part hk) (hb _)
  | .block body => exact Stmt.eliminateList_visits h _ body s

theorem ClassElement.eliminateList_visits (h : Visits F V S R) (es : List ClassElement) (s : State) :
    V .list (ClassElement.foldList F es) s (ClassElement.foldList F (ClassElement.eliminateList es s).1)
      (ClassElement.eliminateList es s).2 := by
  match es with
  | [] => exact h.empty
  | e :: es =>
    exact h.append (ClassElement.eliminate_visits h e s) (ClassElement.eliminateList_visits h es _)

theorem Pattern.eliminate_visits (h : Visits F V S R) (kind : BindingKind) (p : Pattern) (s : State) :
    V .part (p.fold F kind) s ((p.eliminate s).1.fold F kind) (p.eliminate s).2 := by
  match p with
  | .hole => exact h.hole
  | .ident id => exact h.ident _ id
  | .array elems rest =>
    exact h.append (Declarator.eliminateElems_visits h kind elems s)
      (Pattern.eliminateOpt_visits h kind rest _)
  | .object props rest =>
    exact h.append (PatternProp.eliminateList_visits h kind props s)
      (Pattern.eliminateOpt_visits h kind rest _)

theorem Pattern.eliminateOpt_visits (h : Visits F V S R) (kind : BindingKind) (p : Option Pattern)
    (s : State) :
    V .part (Pattern.foldOpt F kind p) s (Pattern.foldOpt F kind (Pattern.eliminateOpt p s).1)
      (Pattern.eliminateOpt p s).2 := by
  match p with
  | none => exact h.empty
  | some p => exact Pattern.eliminate_visits h kind p s

theorem Declarator.eliminate_visits (h : Visits F V S R) (kind : BindingKind) (d : Declarator) (s : State) :
    V .part (d.fold F kind) s ((d.eliminate s).1.fold F kind) (d.eliminate s).2 := by
  match d with
  | .mk site target init =>
    have ht := Pattern.eliminate_visits h kind target s
    have hi := Expr.eliminateOpt_visits h .value init (target.eliminate s).2
    cases hd : s.isDead site with
    | true => rw [Declarator.eliminate_dead hd]; exact h.deadDeclarator kind hd
    | false =>
      cases htr : (target.eliminate s).2.trimmed.contains site with
      | true =>
        rw [Declarator.eliminate_trimmed hd htr]
        exact h.trimmed kind hd htr (target.eliminate_head s).symm (target.eliminate_names s).symm ht
      | false =>
        rw [Declarator.eliminate_alive hd htr]
        refine h.declarator kind hd htr (target.eliminate_head s).symm (target.eliminate_names s).symm
          ?_ ht hi
        cases init <;> rfl

theorem Declarator.eliminateList_visits (h : Visits F V S R) (kind : BindingKind) (ds : List Declarator)
    (s : State) :
    V .part (Declarator.foldList F kind ds) s (Declarator.foldList F kind (Declarator.eliminateList ds s).1)
      (Declarator.eliminateList ds s).2 := by
  match ds with
  | [] => exact h.empty
  | d :: ds =>
    exact h.append (Declarator.eliminate_visits h kind d s) (Declarator.eliminateList_visits h kind ds _)

theorem Declarator.eliminateElem_visits (h : Visits F V S R) (kind : BindingKind) (d : Declarator)
    (s : State) : V .part (d.foldElem F kind) s ((d.eliminate s).1.foldElem F kind) (d.eliminate s).2 := by
  match d with
  | .mk site target init =>
    have ht := Pattern.eliminate_visits h kind target s
    have hi := Expr.eliminateOpt_visits h .value init (target.eliminate s).2
    cases hd : s.isDead site with
    | true => rw [Declarator.eliminate_dead hd]; exact h.deadElement kind hd
    | false =>
      cases htr : (target.eliminate s).2.trimmed.contains site with
      | true =>
        rw [Declarator.eliminate_trimmed hd htr]
        exact h.trimmedElement kind (target.eliminate_head s).symm (target.eliminate_names s).symm ht
      | false =>
        rw [Declarator.eliminate_alive hd htr]
        refine h.element kind (target.eliminate_head s).symm (target.eliminate_names s).symm ?_ ht hi
        cases init <;> rfl

theorem Declarator.eliminateElems_visits (h : Visits F V S R) (kind : BindingKind) (ds : List Declarator)
    (s : State) :
    V .part (Declarator.foldElems F kind ds) s (Declarator.foldElems F kind (Declarator.eliminateList ds s).1)
      (Declarator.eliminateList ds s).2 := by
  match ds with
  | [] => exact h.empty
  | d :: ds =>
    exact h.append (Declarator.eliminateElem_visits h kind d s) (Declarator.eliminateElems_visits h kind ds _)

theorem PatternProp.eliminate_visits (h : Visits F V S R) (kind : BindingKind) (p : PatternProp)
    (s : State) : V .part (p.fold F kind) s ((p.eliminate s).1.fold F kind) (p.eliminate s).2 := by
  match p with
  | .mk key computed _ value =>
    have hv := Declarator.eliminateElem_visits h kind value
    have hk := Expr.eliminate_visits h .value key s
    cases computed with
    | false => exact h.append h.empty (hv _)
    | true => exact h.append hk (hv _)

theorem PatternProp.eliminateList_visits (h : Visits F V S R) (kind : BindingKind) (ps : List PatternProp)
    (s : State) :
    V .part (PatternProp.foldList F kind ps) s
      (PatternProp.foldList F kind (PatternProp.eliminateList ps s).1)
      (PatternProp.eliminateList ps s).2 := by
  match ps with
  | [] => exact h.empty
  | p :: ps =>
    exact h.append (PatternProp.eliminate_visits h kind p s)
      (PatternProp.eliminateList_visits h kind ps _)

theorem Stmt.eliminate_visits (h : Visits F V S R) (t : Stmt) (s : State) :
    S (t.fold F) s ((t.eliminate s).1.fold F) (t.eliminate s).2 := by
  match t with
  | .empty | .debugger | .exportAll .. => exact h.stmt rfl h.empty
  | .brk label | .cont label => exact h.stmt rfl (h.part (h.optIdent _ label))
  | .importDecl specs _ => exact h.stmt rfl (h.part (h.all _ (fun i : ImportSpec => i.binder) specs))
  | .exportNames specs _ => exact h.stmt rfl (h.part (h.all _ (fun e : ExportSpec => e.source) specs))
  | .block body => exact h.stmt rfl (Stmt.eliminateList_visits h _ body s)
  | .expr e => exact h.stmt rfl (h.part (Expr.eliminate_visits h _ e s))
  | .cond test yes no =>
    exact h.stmt rfl (h.append (h.part (Expr.eliminate_visits h _ test s))
      (h.append (h.inSlot (Stmt.eliminate_visits h yes) _) (Stmt.eliminateOpt_visits h no _)))
  | .ret arg => exact h.stmt rfl (h.part (Expr.eliminateOpt_visits h _ arg s))
  | .throw arg => exact h.stmt rfl (h.part (Expr.eliminate_visits h _ arg s))
  | .labelled label body =>
    exact h.stmt rfl (h.append (h.part (h.ident _ label)) (h.inSlot (Stmt.eliminate_visits h body) s))
  | .while test body =>
    exact h.stmt rfl
      (h.append (h.part (Expr.eliminate_visits h _ test s)) (h.inSlot (Stmt.eliminate_visits h body) _))
  | .doWhile body test =>
    exact h.stmt rfl
      (h.append (h.inSlot (Stmt.eliminate_visits h body) s) (h.part (Expr.eliminate_visits h _ test _)))
  | .for head test update body =>
    exact h.stmt rfl (h.append (ForHead.eliminate_visits h true head s)
      (h.append (h.part (Expr.eliminateOpt_visits h _ test _))
        (h.append (h.part (Expr.eliminateOpt_visits h _ update _)) (h.inSlot (Stmt.eliminate_visits h body) _))))
  | .forIn head source body =>
    exact h.stmt rfl (h.append (ForHead.eliminate_visits h false head s)
      (h.append (h.part (Expr.eliminate_visits h _ source _)) (h.inSlot (Stmt.eliminate_visits h body) _)))
  | .forOf head source body await =>
    exact h.stmt rfl (h.append (ForHead.eliminate_visits h false head s)
      (h.append (h.part (Expr.eliminate_visits h _ source _)) (h.inSlot (Stmt.eliminate_visits h body) _)))
  | .switch subject cases =>
    exact h.stmt rfl
      (h.append (h.part (Expr.eliminate_visits h _ subject s)) (Case.eliminateList_visits h cases _))
  | .tryCatch body param handler finalizer =>
    exact h.stmt rfl (h.append (Stmt.eliminateList_visits h _ body s)
      (h.append (h.part (Pattern.eliminateOpt_visits h _ param _))
        (h.append (Stmt.eliminateList_visits h _ handler _) (Stmt.eliminateBlock_visits h finalizer _))))
  | .tryFinally body finalizer =>
    exact h.stmt rfl
      (h.append (Stmt.eliminateList_visits h _ body s) (Stmt.eliminateList_visits h _ finalizer _))
  | .decl kind list => exact h.stmt rfl (Declarator.eliminateList_visits h _ list s)
  | .func f => exact h.funcDecl (f.eliminate_head s).symm (Func.eliminate_visits h _ f s)
  | .cls c => exact h.clsDecl (c.eliminate_head s).symm (Class.eliminate_visits h _ c s)
  | .exportDecl decl => exact h.stmt rfl (h.inSlot (Stmt.eliminate_visits h decl) s)
  | .exportDefault decl => exact h.stmt rfl (h.inSlot (Stmt.eliminate_visits h decl) s)
  | .exportDefaultExpr e => exact h.stmt rfl (h.part (Expr.eliminate_visits h _ e s))

theorem Stmt.eliminateOpt_visits (h : Visits F V S R) (t : Option Stmt) (s : State) :
    V .slot (Stmt.foldOpt F t) s (Stmt.foldOpt F (Stmt.eliminateOpt t s).1) (Stmt.eliminateOpt t s).2 := by
  match t with
  | none => exact h.empty
  | some t => exact h.inSlot (Stmt.eliminate_visits h t) s

theorem Stmt.eliminateList_visits (h : Visits F V S R) (past : Bool) (ts : List Stmt) (s : State) :
    V .list (Stmt.foldList F ts) s (Stmt.foldList F (Stmt.eliminateList past ts s).1)
      (Stmt.eliminateList past ts s).2 := by
  match ts with
  | [] => exact h.empty
  | t :: ts =>
    have ht := h.inList past (Stmt.eliminate_visits h t) s
    rw [Stmt.eliminateList]
    simp only [run_bind, run_pure, h.lawful.foldList_append]
    exact h.append ht (Stmt.eliminateList_visits h _ ts _)

theorem Stmt.eliminateBlock_visits (h : Visits F V S R) (ts : Option (List Stmt)) (s : State) :
    V .list (Stmt.foldOptList F ts) s (Stmt.foldOptList F (Stmt.eliminateBlock ts s).1)
      (Stmt.eliminateBlock ts s).2 := by
  match ts with
  | none => exact h.empty
  | some ts => exact Stmt.eliminateList_visits h false ts s

theorem ForHead.eliminate_visits (h : Visits F V S R) (removes : Bool) (head : ForHead) (s : State) :
    V .slot (head.fold F) s ((head.eliminate removes s).1.fold F) (head.eliminate removes s).2 := by
  match head with
  | .empty => exact h.empty
  | .decl kind list =>
    have hl := h.part (m := .slot) (Declarator.eliminateList_visits h kind.bindingKind list s)
    cases removes with
    | false => exact hl
    | true => exact h.loopHead _ (Declarator.eliminateList_head list s).symm hl
  | .expr e => exact h.part (Expr.eliminate_visits h _ e s)

theorem Case.eliminate_visits (h : Visits F V S R) (c : Case) (s : State) :
    V .list (c.fold F) s ((c.eliminate s).1.fold F) (c.eliminate s).2 := by
  match c with
  | .mk test body =>
    exact h.append (h.part (Expr.eliminateOpt_visits h _ test s)) (Stmt.eliminateList_visits h _ body _)

theorem Case.eliminateList_visits (h : Visits F V S R) (cs : List Case) (s : State) :
    V .list (Case.foldList F cs) s (Case.foldList F (Case.eliminateList cs s).1)
      (Case.eliminateList cs s).2 := by
  match cs with
  | [] => exact h.empty
  | c :: cs => exact h.append (Case.eliminate_visits h c s) (Case.eliminateList_visits h cs _)

end

end Deadwood
