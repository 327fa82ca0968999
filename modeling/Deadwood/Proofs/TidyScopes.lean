import Deadwood.Proofs.Beside
import Deadwood.Proofs.Stamps

/-!
# The scopes of a tidied program

Resolution finds the same names in a program and in its tidied form: the blocks that are dropped hold none.
-/

namespace Deadwood

open ScopeWalk

/-! ### Statements that do nothing -/

section

variable {σ : Type} {v : ScopeVisitor (StateM σ)}

mutual

theorem Stmt.walkScopes_isIdle (hv : v.Restamps) (cx : Context) (c : Option Container) (f : Ident → Ident) (t : Stmt)
    (s : σ) : ((t.walkScopes v cx c s).1.tidy f).settle.isEmpty = (t.tidy f).settle.isEmpty := by
  have loop {opener : Opener} {act : StateM σ Stmt} (hact : ∀ r, ((act r).1.tidy f).settle.isEmpty = false) :
      ((v.inScope .block opener act s).1.tidy f).settle.isEmpty = false := by
    obtain ⟨r, hr⟩ := hv.inScope .block opener act s
    rw [hr]
    exact hact r
  match t with
  | .block body =>
    obtain ⟨r, hr⟩ := hv.inScope .block .block (Stmt.walkScopesList v cx body) s
    have hb := Stmt.walkScopesList_isIdle hv cx f body r
    rw [← hr] at hb
    exact hb
  | .decl _ [] => rfl
  | .decl _ (.mk .. :: _) => cases c <;> rfl
  | .exportNames _ none | .exportNames _ (some _) => rfl
  | .while .. | .doWhile .. | .for .. | .forIn .. | .forOf .. => exact loop fun _ => rfl
  | .empty | .debugger | .expr _ | .cond .. | .ret _ | .throw _ | .brk _ | .cont _ | .labelled .. | .switch ..
  | .tryCatch .. | .tryFinally .. | .func _ | .cls _ | .importDecl .. | .exportDecl _ | .exportAll ..
  | .exportDefault _ | .exportDefaultExpr _ => rfl

theorem Stmt.walkScopesList_isIdle (hv : v.Restamps) (cx : Context) (f : Ident → Ident) (ts : List Stmt) (s : σ) :
    (Stmt.block (Stmt.tidyList f (Stmt.walkScopesList v cx ts s).1)).isEmpty =
      (Stmt.block (Stmt.tidyList f ts)).isEmpty := by
  match ts with
  | [] => rfl
  | t :: ts =>
    have ht := Stmt.walkScopes_isIdle hv cx none f t s
    have hts := Stmt.walkScopesList_isIdle hv cx f ts (t.walkScopes v cx none s).2
    simp only [Stmt.walkScopesList, run_bind, run_pure, Stmt.tidyList, ht]
    split
    · exact hts
    · rfl

end

end

/-- Both walks leave something as it is and go through a number of scopes in it. -/
def OpensScopes {α : Type} (a : StateM Hoist.State α) (w : StateM Resolve.State α) (z : α) : Prop :=
  ∃ n, (∀ s, ∃ more : Array Scope, more.size = n ∧ a s = (z, { s with scopes := s.scopes ++ more })) ∧
    ∀ r, w r = (z, { r with entered := r.entered + n })

theorem OpensScopes.pure {α : Type} (z : α) : OpensScopes (pure z) (pure z) z :=
  ⟨0, fun s => ⟨#[], rfl, by rw [Array.append_empty]; rfl⟩, fun _ => rfl⟩

mutual

/-- A statement that does nothing opens scopes at most. -/
theorem Stmt.walkScopes_idle (cx : Context) {f : Ident → Ident} (t : Stmt) (h : (t.tidy f).settle.isEmpty = true) :
    OpensScopes (t.walkScopes Hoist.visitor cx none) (t.walkScopes Resolve.visitor cx none) t := by
  match t with
  | .empty => exact .pure Stmt.empty
  | .decl kind [] => exact .pure (Stmt.decl kind [])
  | .block body =>
    obtain ⟨n, hs, hr⟩ := Stmt.walkScopesList_idle cx body (List.isEmpty_iff.1 h)
    refine ⟨n + 1, fun s => ?_, fun r => ?_⟩
    · obtain ⟨more, hn, he⟩ := hs (s.entering .block .block)
      refine ⟨#[{ mark := s.scopes.size + 1, kind := .block, opener := .block, outer := s.path }] ++ more, ?_, ?_⟩
      · rw [Array.size_append, hn, Nat.add_comm]
        rfl
      · simp only [Stmt.walkScopes, Hoist.visitor, run_bind, run_pure, Hoist.inScope_run]
        simp only [Hoist.visitor] at he
        rw [he, ← Array.append_assoc, Array.append_singleton]
        rfl
    · simp only [Stmt.walkScopes, Resolve.visitor, run_bind, run_pure, Resolve.inScope_run]
      simp only [Resolve.visitor] at hr
      rw [hr, Resolve.State.entering, Nat.add_right_comm, Nat.add_assoc]

theorem Stmt.walkScopesList_idle (cx : Context) {f : Ident → Ident} (ts : List Stmt) (h : Stmt.tidyList f ts = []) :
    OpensScopes (Stmt.walkScopesList Hoist.visitor cx ts) (Stmt.walkScopesList Resolve.visitor cx ts) ts := by
  match ts with
  | [] => exact .pure []
  | t :: ts =>
    rw [Stmt.tidyList] at h
    split at h
    next ht =>
      obtain ⟨n, hs, hr⟩ := Stmt.walkScopes_idle cx t ht
      obtain ⟨k, hs', hr'⟩ := Stmt.walkScopesList_idle cx ts h
      refine ⟨n + k, fun s => ?_, fun r => ?_⟩
      · obtain ⟨more, hn, he⟩ := hs s
        obtain ⟨more', hk, he'⟩ := hs' { s with scopes := s.scopes ++ more }
        refine ⟨more ++ more', by rw [Array.size_append, hn, hk], ?_⟩
        simp only [Stmt.walkScopesList, run_bind, run_pure, he, he', Array.append_assoc]
      · simp only [Stmt.walkScopesList, run_bind, run_pure, hr, hr', Nat.add_assoc]
    next => cases h

end

namespace Alongside

variable {f : Ident → Ident} {cx : Context} {c : Option Container} {t : Stmt} {ts : List Stmt}

/-- A statement that stands alone. -/
theorem slot (h : Alongside Stmt.tidy (t.walkScopes Hoist.visitor cx c) ((t.tidy f).walkScopes Hoist.visitor cx c)
      (Stmt.walkScopes Resolve.visitor cx c)) :
    Alongside (fun f t => (t.tidy f).settle) (t.walkScopes Hoist.visitor cx c)
      ((t.tidy f).settle.walkScopes Hoist.visitor cx c) (Stmt.walkScopes Resolve.visitor cx c) := by
  intro K s s' hs
  have h := h K s s' hs
  match t with
  | .decl kind [] => exact ⟨rfl, K, List.prefix_refl K, hs, fun F r r' _ hr => ⟨rfl, hr⟩⟩
  | .decl kind (.mk .. :: _) => cases c <;> exact h
  | .exportNames _ none | .exportNames _ (some _) => exact h
  | .empty | .block _ | .debugger | .expr _ | .cond .. | .ret _ | .throw _ | .brk _ | .cont _ | .labelled ..
  | .while .. | .doWhile .. | .for .. | .forIn .. | .forOf .. | .switch .. | .tryCatch .. | .tryFinally .. | .func _
  | .cls _ | .importDecl .. | .exportDecl _ | .exportAll .. | .exportDefault _ | .exportDefaultExpr _ => exact h

/-- A statement that does nothing is dropped from a list. -/
theorem skip (ht : (t.tidy f).settle.isEmpty = true)
    (h : Alongside Stmt.tidyList (Stmt.walkScopesList Hoist.visitor cx ts)
      (Stmt.walkScopesList Hoist.visitor cx (Stmt.tidyList f ts)) (Stmt.walkScopesList Resolve.visitor cx)) :
    Alongside Stmt.tidyList (Stmt.walkScopesList Hoist.visitor cx (t :: ts))
      (Stmt.walkScopesList Hoist.visitor cx (Stmt.tidyList f ts)) (Stmt.walkScopesList Resolve.visitor cx) := by
  intro K s s' hs
  obtain ⟨n, hn, hr⟩ := Stmt.walkScopes_idle cx t ht
  obtain ⟨more, rfl, he⟩ := hn s
  obtain ⟨h₁, K', hK, hs', h₂⟩ := h K _ _ (hs.skip more)
  have hdrop (g : Ident → Ident) (ts : List Stmt) : Stmt.tidyList g (t :: ts) = Stmt.tidyList g ts :=
    if_pos ((Stmt.tidy_isEmpty g f t).trans ht)
  simp only [Stmt.walkScopesList, run_bind, run_pure, he, hr, hdrop]
  refine ⟨h₁, K', hK, hs', fun F r r' hF hrr => h₂ F _ r' hF (hrr.skip more)⟩

/-- A statement that does something stays in a list. -/
theorem cons (ht : (t.tidy f).settle.isEmpty = false)
    (h : Alongside (fun f t => (t.tidy f).settle) (t.walkScopes Hoist.visitor cx none)
      ((t.tidy f).settle.walkScopes Hoist.visitor cx none) (Stmt.walkScopes Resolve.visitor cx none))
    (h' : Alongside Stmt.tidyList (Stmt.walkScopesList Hoist.visitor cx ts)
      (Stmt.walkScopesList Hoist.visitor cx (Stmt.tidyList f ts)) (Stmt.walkScopesList Resolve.visitor cx)) :
    Alongside Stmt.tidyList (Stmt.walkScopesList Hoist.visitor cx (t :: ts))
      (Stmt.walkScopesList Hoist.visitor cx ((t.tidy f).settle :: Stmt.tidyList f ts))
      (Stmt.walkScopesList Resolve.visitor cx) := by
  intro K s s' hs
  obtain ⟨h₁, K', hK, hs', h₂⟩ := h.pair h' K s s' hs
  have hkeep {g : Ident → Ident} {t : Stmt} {ts : List Stmt} (ht : (t.tidy f).settle.isEmpty = false) :
      Stmt.tidyList g (t :: ts) = (t.tidy g).settle :: Stmt.tidyList g ts :=
    if_neg (Bool.eq_false_iff.1 ((Stmt.tidy_isEmpty g f t).trans ht))
  have hs₁ := (Stmt.walkScopes_isIdle Hoist.visitor_restamps cx none f t s).trans ht
  simp only [Stmt.walkScopesList, run_bind, run_pure] at h₁ h₂ hs' ⊢
  rw [hkeep hs₁]
  refine ⟨?_, K', hK, hs', fun F r r' hF hrr => ?_⟩
  · obtain ⟨e₁, e₂⟩ := Prod.mk.inj h₁
    rw [e₁, e₂]
  · obtain ⟨h₃, h₄⟩ := h₂ F r r' hF hrr
    have hs₂ := (Stmt.walkScopes_isIdle Resolve.visitor_restamps cx none f
      (t.walkScopes Hoist.visitor cx none s).1 r).trans hs₁
    obtain ⟨e₁, e₂⟩ := Prod.mk.inj h₃
    simp only [Stmt.walkScopesList, run_bind, run_pure, hkeep hs₂, e₁, e₂]
    exact ⟨trivial, h₄⟩

/-- One element after another. -/
theorem mapM {α : Type} {T : (Ident → Ident) → α → α} {act act' : α → StateM Hoist.State α}
    {w : α → StateM Resolve.State α} (g : α → α) (h : ∀ x, Alongside T (act x) (act' (g x)) w) (xs : List α) :
    Alongside (fun f xs => xs.map (T f)) (xs.mapM act) ((xs.map g).mapM act') (fun xs => xs.mapM w) := by
  induction xs with
  | nil => exact .atom (fun _ => rfl) fun _ => rfl
  | cons x xs ih =>
    rw [List.map_cons, List.mapM_cons, List.mapM_cons]
    refine ((h x).pair ih).map (fun p => p.1 :: p.2) (fun _ _ => rfl) fun z r => ?_
    rw [List.mapM_cons]
    rfl

end Alongside

section

set_option linter.unusedSectionVars false

variable {f : Ident → Ident} (hf : ∀ id, (f id).name = id.name)

include hf

/-- The names that an import declares. -/
theorem Alongside.imports (cx : Context) (specs : List ImportSpec) :
    Alongside (fun f specs => specs.map fun i => { i with binder := f i.binder })
      (specs.mapM fun i => do
        Hoist.visitor.contain (some .importDecl)
        return { i with binder := ← Hoist.visitor.declare cx.inHead i.binder .module fun _ => .importDecl })
      ((specs.map fun i => { i with binder := f i.binder }).mapM fun i => do
        Hoist.visitor.contain (some .importDecl)
        return { i with binder := ← Hoist.visitor.declare cx.inHead i.binder .module fun _ => .importDecl })
      (fun specs => specs.mapM fun i => do
        Resolve.visitor.contain (some .importDecl)
        return { i with binder := ← Resolve.visitor.declare cx.inHead i.binder .module fun _ => .importDecl }) := by
  refine .mapM _ (fun i => ?_) specs
  exact ((Alongside.declare hf cx.inHead i.binder .module fun _ => .importDecl).contain (some .importDecl)).map
    (ImportSpec.mk i.imported) (fun _ _ => rfl) fun _ _ => rfl

/-- The names in a list of exports. -/
theorem Alongside.exports (specs : List ExportSpec) :
    Alongside (fun f specs => specs.map fun e => { e with source := f e.source })
      (specs.mapM fun e => do return { e with source := ← Hoist.visitor.exportName e.source })
      ((specs.map fun e => { e with source := f e.source }).mapM fun e => do
        return { e with source := ← Hoist.visitor.exportName e.source })
      (fun specs => specs.mapM fun e => do
        return { e with source := ← Resolve.visitor.exportName e.source }) := by
  refine .mapM _ (fun e => ?_) specs
  exact (Alongside.exportName hf e.source).map (ExportSpec.mk · e.exported) (fun _ _ => rfl) fun _ _ => rfl

theorem ScopeVisitor.ownName_alongside (cx : Context) (origin : Origin) (name : Option Ident) :
    Alongside (fun f name => name.map f) (Hoist.visitor.ownName cx true origin name)
      (Hoist.visitor.ownName cx true origin (name.map f)) (Resolve.visitor.ownName cx true origin) := by
  cases name with
  | none => exact .atom (fun _ => rfl) fun _ => rfl
  | some id => exact (Alongside.declare hf cx.inHead id .own _).map some (fun _ _ => rfl) fun _ _ => rfl

mutual

theorem Expr.alongside (cx : Context) (e : Expr) :
    Alongside Expr.tidy (e.walkScopes Hoist.visitor cx) ((e.tidy f).walkScopes Hoist.visitor cx)
      (Expr.walkScopes Resolve.visitor cx) := by
  match e with
  | .hole | .this | .super | .null | .bool _ | .number .. | .string _ | .regExp .. =>
    exact .atom (fun _ => rfl) fun _ => rfl
  | .ident id => exact (Alongside.refer hf cx.writing id).map Expr.ident (fun _ _ => rfl) fun _ _ => rfl
  | .template tag chunks es =>
    exact ((Expr.alongsideOpt cx tag).pair (Expr.alongsideList cx es)).map (fun p => Expr.template p.1 chunks p.2)
      (fun _ _ => rfl) fun _ _ => rfl
  | .array es => exact (Expr.alongsideList cx es).map Expr.array (fun _ _ => rfl) fun _ _ => rfl
  | .object ps => exact (Property.alongsideList cx ps).map Expr.object (fun _ _ => rfl) fun _ _ => rfl
  | .spread e => exact (Expr.alongside cx e).map Expr.spread (fun _ _ => rfl) fun _ _ => rfl
  | .func fn => exact (Func.alongside cx fn).map Expr.func (fun _ _ => rfl) fun _ _ => rfl
  | .arrow params rest body async =>
    exact ((((Declarator.alongsideElems cx.read .param .arrowLiteral params).pair
      ((Pattern.alongsideOpt cx.read .param .arrowLiteral rest).pair (Expr.alongside cx.read body))).contain none).inScope
      .function .arrow).map (fun p => Expr.arrow p.1 p.2.1 p.2.2 async) (fun _ _ => rfl) fun _ _ => rfl
  | .arrowBlock params rest body async =>
    exact ((((Declarator.alongsideElems cx.read .param .arrowLiteral params).pair
      ((Pattern.alongsideOpt cx.read .param .arrowLiteral rest).pair (Stmt.alongsideList cx.read body))).contain none).inScope
      .function .arrow).map (fun p => Expr.arrowBlock p.1 p.2.1 p.2.2 async) (fun _ _ => rfl) fun _ _ => rfl
  | .cls c => exact (Class.alongside cx c).map Expr.cls (fun _ _ => rfl) fun _ _ => rfl
  | .unary op e => exact (Expr.alongside cx e).map (Expr.unary op) (fun _ _ => rfl) fun _ _ => rfl
  | .update op e post =>
    exact (Expr.alongside cx.write e).map (Expr.update op · post) (fun _ _ => rfl) fun _ _ => rfl
  | .binary op l r =>
    exact ((Expr.alongside cx l).pair (Expr.alongside cx r)).map (fun p => Expr.binary op p.1 p.2)
      (fun _ _ => rfl) fun _ _ => rfl
  | .assign op l r =>
    exact ((Expr.alongside cx.write l).pair (Expr.alongside cx.read r)).map (fun p => Expr.assign op p.1 p.2)
      (fun _ _ => rfl) fun _ _ => rfl
  | .cond test yes no =>
    exact ((Expr.alongside cx test).pair ((Expr.alongside cx yes).pair (Expr.alongside cx no))).map
      (fun p => Expr.cond p.1 p.2.1 p.2.2) (fun _ _ => rfl) fun _ _ => rfl
  | .seq es => exact (Expr.alongsideList cx es).map Expr.seq (fun _ _ => rfl) fun _ _ => rfl
  | .call callee args optional =>
    exact (((Expr.alongside cx.read callee).pair (Expr.alongsideList cx.read args)).called (·.1)
      (fun _ _ => rfl)).map (fun p => Expr.call p.1 p.2 optional) (fun _ _ => rfl) fun _ _ => rfl
  | .new callee args =>
    exact ((Expr.alongside cx callee).pair (Expr.alongsideList cx args)).map (fun p => Expr.new p.1 p.2)
      (fun _ _ => rfl) fun _ _ => rfl
  | .member o name optional =>
    exact (Expr.alongside cx.read o).map (Expr.member · name optional) (fun _ _ => rfl) fun _ _ => rfl
  | .index o key optional =>
    exact ((Expr.alongside cx.read o).pair (Expr.alongside cx.read key)).map (fun p => Expr.index p.1 p.2 optional)
      (fun _ _ => rfl) fun _ _ => rfl
  | .await e => exact (Expr.alongside cx e).map Expr.await (fun _ _ => rfl) fun _ _ => rfl
  | .yield arg delegate =>
    exact (Expr.alongsideOpt cx arg).map (Expr.yield · delegate) (fun _ _ => rfl) fun _ _ => rfl

theorem Expr.alongsideOpt (cx : Context) (e : Option Expr) :
    Alongside Expr.tidyOpt (Expr.walkScopesOpt Hoist.visitor cx e) (Expr.walkScopesOpt Hoist.visitor cx (Expr.tidyOpt f e))
      (Expr.walkScopesOpt Resolve.visitor cx) := by
  match e with
  | none => exact .atom (fun _ => rfl) fun _ => rfl
  | some e => exact (Expr.alongside cx e).map some (fun _ _ => rfl) fun _ _ => rfl

theorem Expr.alongsideList (cx : Context) (es : List Expr) :
    Alongside Expr.tidyList (Expr.walkScopesList Hoist.visitor cx es)
      (Expr.walkScopesList Hoist.visitor cx (Expr.tidyList f es)) (Expr.walkScopesList Resolve.visitor cx) := by
  match es with
  | [] => exact .atom (fun _ => rfl) fun _ => rfl
  | e :: es =>
    exact ((Expr.alongside cx e).pair (Expr.alongsideList cx es)).map (fun p => p.1 :: p.2)
      (fun _ _ => rfl) fun _ _ => rfl

theorem Property.alongside (cx : Context) (p : Property) :
    Alongside Property.tidy (p.walkScopes Hoist.visitor cx) ((p.tidy f).walkScopes Hoist.visitor cx)
      (Property.walkScopes Resolve.visitor cx) := by
  match p with
  | .short id init =>
    exact ((Alongside.refer hf cx.writing id).pair (Expr.alongsideOpt cx.read init)).map
      (fun p => Property.short p.1 p.2) (fun _ _ => rfl) fun _ _ => rfl
  | .keyed key kind value false =>
    exact (Expr.alongside cx value).map (Property.keyed key kind · false) (fun _ _ => rfl) fun _ _ => rfl
  | .keyed key kind value true =>
    exact ((Expr.alongside cx.read key).pair (Expr.alongside cx value)).map (fun p => Property.keyed p.1 kind p.2 true)
      (fun _ _ => rfl) fun _ _ => rfl
  | .spread e => exact (Expr.alongside cx e).map Property.spread (fun _ _ => rfl) fun _ _ => rfl

theorem Property.alongsideList (cx : Context) (ps : List Property) :
    Alongside Property.tidyList (Property.walkScopesList Hoist.visitor cx ps)
      (Property.walkScopesList Hoist.visitor cx (Property.tidyList f ps))
      (Property.walkScopesList Resolve.visitor cx) := by
  match ps with
  | [] => exact .atom (fun _ => rfl) fun _ => rfl
  | p :: ps =>
    exact ((Property.alongside cx p).pair (Property.alongsideList cx ps)).map (fun p => p.1 :: p.2)
      (fun _ _ => rfl) fun _ _ => rfl

theorem Func.alongside (cx : Context) (fn : Func) :
    Alongside Func.tidy (fn.walkScopes Hoist.visitor cx true) ((fn.tidy f).walkScopes Hoist.visitor cx true)
      (Func.walkScopes Resolve.visitor cx true) := by
  match fn with
  | .mk name params rest body async generator =>
    exact (((ScopeVisitor.ownName_alongside hf cx .funcLiteral name).pair
      (((Declarator.alongsideElems cx.read .param .funcLiteral params).pair
        ((Pattern.alongsideOpt cx.read .param .funcLiteral rest).pair (Stmt.alongsideList cx.read body))).contain
          none)).inScope .function .function).map (fun p => Func.mk p.1 p.2.1 p.2.2.1 p.2.2.2 async generator)
      (fun _ _ => rfl) fun _ _ => rfl

theorem Class.alongside (cx : Context) (c : Class) :
    Alongside Class.tidy (c.walkScopes Hoist.visitor cx true) ((c.tidy f).walkScopes Hoist.visitor cx true)
      (Class.walkScopes Resolve.visitor cx true) := by
  match c with
  | .mk name superclass body decorators =>
    exact ((Expr.alongsideList cx.read decorators).pair ((Expr.alongsideOpt cx.read superclass).pair
      (((ScopeVisitor.ownName_alongside hf cx .clsLiteral name).pair
        (ClassElement.alongsideList cx.read body)).inScope .cls .cls))).map
      (fun p => Class.mk p.2.2.1 p.2.1 p.2.2.2 p.1) (fun _ _ => rfl) fun _ _ => rfl

theorem ClassElement.alongside (cx : Context) (e : ClassElement) :
    Alongside ClassElement.tidy (e.walkScopes Hoist.visitor cx) ((e.tidy f).walkScopes Hoist.visitor cx)
      (ClassElement.walkScopes Resolve.visitor cx) := by
  match e with
  | .field key init false isStatic =>
    exact (Expr.alongsideOpt cx init).map (ClassElement.field key · false isStatic) (fun _ _ => rfl) fun _ _ => rfl
  | .field key init true isStatic =>
    exact ((Expr.alongside cx key).pair (Expr.alongsideOpt cx init)).map
      (fun p => ClassElement.field p.1 p.2 true isStatic) (fun _ _ => rfl) fun _ _ => rfl
  | .method key kind body false isStatic =>
    exact (Func.alongside cx body).map (ClassElement.method key kind · false isStatic) (fun _ _ => rfl) fun _ _ => rfl
  | .method key kind body true isStatic =>
    exact ((Expr.alongside cx key).pair (Func.alongside cx body)).map
      (fun p => ClassElement.method p.1 kind p.2 true isStatic) (fun _ _ => rfl) fun _ _ => rfl
  | .block body =>
    exact ((Stmt.alongsideList cx body).inScope .block .block).map ClassElement.block (fun _ _ => rfl) fun _ _ => rfl

theorem ClassElement.alongsideList (cx : Context) (es : List ClassElement) :
    Alongside ClassElement.tidyList (ClassElement.walkScopesList Hoist.visitor cx es)
      (ClassElement.walkScopesList Hoist.visitor cx (ClassElement.tidyList f es))
      (ClassElement.walkScopesList Resolve.visitor cx) := by
  match es with
  | [] => exact .atom (fun _ => rfl) fun _ => rfl
  | e :: es =>
    exact ((ClassElement.alongside cx e).pair (ClassElement.alongsideList cx es)).map (fun p => p.1 :: p.2)
      (fun _ _ => rfl) fun _ _ => rfl

theorem Pattern.alongside (cx : Context) (kind : BindingKind) (origin : Origin) (p : Pattern) :
    Alongside Pattern.tidy (p.walkScopes Hoist.visitor cx kind origin)
      ((p.tidy f).walkScopes Hoist.visitor cx kind origin) (Pattern.walkScopes Resolve.visitor cx kind origin) := by
  match p with
  | .hole => exact .atom (fun _ => rfl) fun _ => rfl
  | .ident id =>
    exact (Alongside.declare hf cx.inHead id kind fun _ => origin).map Pattern.ident (fun _ _ => rfl) fun _ _ => rfl
  | .array elems rest =>
    exact ((Declarator.alongsideElems cx kind origin elems).pair (Pattern.alongsideOpt cx kind origin rest)).map
      (fun p => Pattern.array p.1 p.2) (fun _ _ => rfl) fun _ _ => rfl
  | .object props rest =>
    exact ((PatternProp.alongsideList cx kind origin props).pair (Pattern.alongsideOpt cx kind origin rest)).map
      (fun p => Pattern.object p.1 p.2) (fun _ _ => rfl) fun _ _ => rfl

theorem Pattern.alongsideOpt (cx : Context) (kind : BindingKind) (origin : Origin) (p : Option Pattern) :
    Alongside Pattern.tidyOpt (Pattern.walkScopesOpt Hoist.visitor cx kind origin p)
      (Pattern.walkScopesOpt Hoist.visitor cx kind origin (Pattern.tidyOpt f p))
      (Pattern.walkScopesOpt Resolve.visitor cx kind origin) := by
  match p with
  | none => exact .atom (fun _ => rfl) fun _ => rfl
  | some p => exact (Pattern.alongside cx kind origin p).map some (fun _ _ => rfl) fun _ _ => rfl

theorem Declarator.alongsideElem (cx : Context) (kind : BindingKind) (origin : Origin) (d : Declarator) :
    Alongside Declarator.tidy (d.walkScopesElem Hoist.visitor cx kind origin)
      ((d.tidy f).walkScopesElem Hoist.visitor cx kind origin)
      (Declarator.walkScopesElem Resolve.visitor cx kind origin) := by
  match d with
  | .mk site target init =>
    exact (Alongside.site fun _ =>
      (Expr.alongsideOpt cx init).pair (Pattern.alongside cx kind origin target)).map
      (fun p => Declarator.mk p.1 p.2.2 p.2.1) (fun _ _ => rfl) fun _ _ => rfl

theorem Declarator.alongsideElems (cx : Context) (kind : BindingKind) (origin : Origin) (ds : List Declarator) :
    Alongside Declarator.tidyList (Declarator.walkScopesElems Hoist.visitor cx kind origin ds)
      (Declarator.walkScopesElems Hoist.visitor cx kind origin (Declarator.tidyList f ds))
      (Declarator.walkScopesElems Resolve.visitor cx kind origin) := by
  match ds with
  | [] => exact .atom (fun _ => rfl) fun _ => rfl
  | d :: ds =>
    exact ((Declarator.alongsideElem cx kind origin d).pair (Declarator.alongsideElems cx kind origin ds)).map
      (fun p => p.1 :: p.2) (fun _ _ => rfl) fun _ _ => rfl

theorem PatternProp.alongside (cx : Context) (kind : BindingKind) (origin : Origin) (p : PatternProp) :
    Alongside PatternProp.tidy (p.walkScopes Hoist.visitor cx kind origin)
      ((p.tidy f).walkScopes Hoist.visitor cx kind origin)
      (PatternProp.walkScopes Resolve.visitor cx kind origin) := by
  match p with
  | .mk key false shorthand value =>
    exact (Declarator.alongsideElem cx kind origin value).map (PatternProp.mk key false shorthand)
      (fun _ _ => rfl) fun _ _ => rfl
  | .mk key true shorthand value =>
    exact ((Expr.alongside cx key).pair (Declarator.alongsideElem cx kind origin value)).map
      (fun p => PatternProp.mk p.1 true shorthand p.2) (fun _ _ => rfl) fun _ _ => rfl

theorem PatternProp.alongsideList (cx : Context) (kind : BindingKind) (origin : Origin) (ps : List PatternProp) :
    Alongside PatternProp.tidyList (PatternProp.walkScopesList Hoist.visitor cx kind origin ps)
      (PatternProp.walkScopesList Hoist.visitor cx kind origin (PatternProp.tidyList f ps))
      (PatternProp.walkScopesList Resolve.visitor cx kind origin) := by
  match ps with
  | [] => exact .atom (fun _ => rfl) fun _ => rfl
  | p :: ps =>
    exact ((PatternProp.alongside cx kind origin p).pair (PatternProp.alongsideList cx kind origin ps)).map
      (fun p => p.1 :: p.2) (fun _ _ => rfl) fun _ _ => rfl

theorem Declarator.alongsideDecls (cx : Context) (kind : DeclKind) (isExported : Bool) (ds : List Declarator) :
    Alongside Declarator.tidyList (Declarator.walkScopesDecls Hoist.visitor cx kind isExported ds)
      (Declarator.walkScopesDecls Hoist.visitor cx kind isExported (Declarator.tidyList f ds))
      (Declarator.walkScopesDecls Resolve.visitor cx kind isExported) := by
  match ds with
  | [] => exact .atom (fun _ => rfl) fun _ => rfl
  | .mk site target init :: ds =>
    have hi := Expr.alongsideOpt cx init
    have ht (site : Site) := (Pattern.alongside cx kind.bindingKind (.declarator site) target).contain (some .decl)
    have hds := Declarator.alongsideDecls cx kind isExported ds
    cases isExported with
    | false =>
      exact ((Alongside.site fun site => hi.pair (ht site)).pair hds).map
        (fun p => Declarator.mk p.1.1 p.1.2.2 p.1.2.1 :: p.2) (fun _ _ => rfl) fun _ _ => rfl
    | true =>
      exact ((Alongside.site fun site => hi.pair ((ht site).exportDeclared Pattern.names
        fun p => (Pattern.tidy_names id p).trans (List.map_id _))).pair hds).map
        (fun p => Declarator.mk p.1.1 p.1.2.2 p.1.2.1 :: p.2) (fun _ _ => rfl) fun _ _ => rfl

theorem Stmt.alongside (cx : Context) (c : Option Container) (t : Stmt) :
    Alongside Stmt.tidy (t.walkScopes Hoist.visitor cx c) ((t.tidy f).walkScopes Hoist.visitor cx c)
      (Stmt.walkScopes Resolve.visitor cx c) := by
  match t with
  | .empty | .debugger | .brk _ | .cont _ | .exportAll .. => exact .atom (fun _ => rfl) fun _ => rfl
  | .block body =>
    exact ((Stmt.alongsideList cx body).inScope .block .block).map Stmt.block (fun _ _ => rfl) fun _ _ => rfl
  | .expr e => exact (Expr.alongside cx e).map Stmt.expr (fun _ _ => rfl) fun _ _ => rfl
  | .cond test yes no =>
    exact ((Expr.alongside cx test).pair ((Stmt.alongside cx none yes).slot.pair (Stmt.alongsideOpt cx no))).map
      (fun p => Stmt.cond p.1 p.2.1 p.2.2) (fun _ _ => rfl) fun _ _ => rfl
  | .ret arg => exact (Expr.alongsideOpt cx arg).map Stmt.ret (fun _ _ => rfl) fun _ _ => rfl
  | .throw arg => exact (Expr.alongside cx arg).map Stmt.throw (fun _ _ => rfl) fun _ _ => rfl
  | .labelled label body =>
    exact (Stmt.alongside cx none body).slot.map (Stmt.labelled label) (fun _ _ => rfl) fun _ _ => rfl
  | .while test body =>
    exact (((Expr.alongside cx test).pair (Stmt.alongside cx none body).slot).inScope .block .whileLoop).map
      (fun p => Stmt.while p.1 p.2) (fun _ _ => rfl) fun _ _ => rfl
  | .doWhile body test =>
    exact (((Stmt.alongside cx none body).slot.pair (Expr.alongside cx test)).inScope .block .doLoop).map
      (fun p => Stmt.doWhile p.1 p.2) (fun _ _ => rfl) fun _ _ => rfl
  | .for head test update body =>
    exact (((ForHead.alongside cx head).pair ((Expr.alongsideOpt cx test).pair ((Expr.alongsideOpt cx update).pair
      (Stmt.alongside cx none body).slot))).inScope .block .forLoop).map
      (fun p => Stmt.for p.1 p.2.1 p.2.2.1 p.2.2.2) (fun _ _ => rfl) fun _ _ => rfl
  | .forIn head source body =>
    exact (((ForHead.alongside _ head).pair ((Expr.alongside cx source).pair
      (Stmt.alongside cx none body).slot)).inScope .block .forIn).map
      (fun p => Stmt.forIn p.1 p.2.1 p.2.2) (fun _ _ => rfl) fun _ _ => rfl
  | .forOf head source body await =>
    exact (((ForHead.alongside _ head).pair ((Expr.alongside cx source).pair
      (Stmt.alongside cx none body).slot)).inScope .block .forOf).map
      (fun p => Stmt.forOf p.1 p.2.1 p.2.2 await) (fun _ _ => rfl) fun _ _ => rfl
  | .switch subject cases =>
    exact ((Expr.alongside cx subject).pair ((Case.alongsideList cx cases).inScope .block .switch)).map
      (fun p => Stmt.switch p.1 p.2) (fun _ _ => rfl) fun _ _ => rfl
  | .tryCatch body none handler finalizer =>
    exact (((Stmt.alongsideList cx body).inScope .block .block).pair
      (((Stmt.alongsideList cx handler).inScope .block .handler).pair (Stmt.alongsideBlock cx finalizer))).map
      (fun p => Stmt.tryCatch p.1 none p.2.1 p.2.2) (fun _ _ => rfl) fun _ _ => rfl
  | .tryCatch body (some param) handler finalizer =>
    exact (((Stmt.alongsideList cx body).inScope .block .block).pair
      (((((Pattern.alongside cx .caught .handler param).pair (Stmt.alongsideList cx handler)).contain none).inScope
        .block .handler).pair (Stmt.alongsideBlock cx finalizer))).map
      (fun p => Stmt.tryCatch p.1 (some p.2.1.1) p.2.1.2 p.2.2) (fun _ _ => rfl) fun _ _ => rfl
  | .tryFinally body finalizer =>
    exact (((Stmt.alongsideList cx body).inScope .block .block).pair
      ((Stmt.alongsideList cx finalizer).inScope .block .block)).map (fun p => Stmt.tryFinally p.1 p.2)
      (fun _ _ => rfl) fun _ _ => rfl
  | .decl kind ds =>
    exact (Declarator.alongsideDecls cx kind c.isSome ds).map (Stmt.decl kind) (fun _ _ => rfl) fun _ _ => rfl
  | .func (.mk none params rest body async generator) =>
    exact (((((Declarator.alongsideElems cx.read .param .funcLiteral params).pair
      ((Pattern.alongsideOpt cx.read .param .funcLiteral rest).pair (Stmt.alongsideList cx.read body))).contain
        none).inScope .function .function).contain c).map
      (fun p => Stmt.func (.mk none p.1 p.2.1 p.2.2 async generator)) (fun _ _ => rfl) fun _ _ => rfl
  | .func (.mk (some name) params rest body async generator) =>
    exact (((Alongside.declare hf cx.inHead name .func .func).pair
      ((((Declarator.alongsideElems cx.read .param .funcLiteral params).pair
        ((Pattern.alongsideOpt cx.read .param .funcLiteral rest).pair (Stmt.alongsideList cx.read body))).contain
          none).inScope .function .function)).contain c).map
      (fun p => Stmt.func (.mk (some p.1) p.2.1 p.2.2.1 p.2.2.2 async generator)) (fun _ _ => rfl) fun _ _ => rfl
  | .cls (.mk none superclass body decorators) =>
    exact ((Expr.alongsideList cx.read decorators).pair ((Expr.alongsideOpt cx.read superclass).pair
      ((ClassElement.alongsideList cx.read body).inScope .cls .cls))).map
      (fun p => Stmt.cls (.mk none p.2.1 p.2.2 p.1)) (fun _ _ => rfl) fun _ _ => rfl
  | .cls (.mk (some name) superclass body decorators) =>
    exact ((Expr.alongsideList cx.read decorators).pair ((Expr.alongsideOpt cx.read superclass).pair
      (((ClassElement.alongsideList cx.read body).inScope .cls .cls).pair
        ((Alongside.declare hf cx.inHead name .cls .cls).contain c)))).map
      (fun p => Stmt.cls (.mk (some p.2.2.2) p.2.1 p.2.2.1 p.1)) (fun _ _ => rfl) fun _ _ => rfl
  | .importDecl specs source =>
    exact (Alongside.imports hf cx specs).map (Stmt.importDecl · source) (fun _ _ => rfl) fun _ _ => rfl
  | .exportDecl decl =>
    exact (Stmt.alongside cx (some .exportDecl) decl).slot.map Stmt.exportDecl (fun _ _ => rfl) fun _ _ => rfl
  | .exportNames specs none =>
    exact (Alongside.exports hf specs).map (Stmt.exportNames · none) (fun _ _ => rfl) fun _ _ => rfl
  | .exportNames specs (some source) => exact .atom (fun _ => rfl) fun _ => rfl
  | .exportDefault decl =>
    exact (Stmt.alongside cx (some .exportDefault) decl).slot.map Stmt.exportDefault (fun _ _ => rfl) fun _ _ => rfl
  | .exportDefaultExpr e => exact (Expr.alongside cx e).map Stmt.exportDefaultExpr (fun _ _ => rfl) fun _ _ => rfl

theorem Stmt.alongsideOpt (cx : Context) (t : Option Stmt) :
    Alongside Stmt.tidyOpt (Stmt.walkScopesOpt Hoist.visitor cx t)
      (Stmt.walkScopesOpt Hoist.visitor cx (Stmt.tidyOpt f t)) (Stmt.walkScopesOpt Resolve.visitor cx) := by
  match t with
  | none => exact .atom (fun _ => rfl) fun _ => rfl
  | some t => exact (Stmt.alongside cx none t).slot.map some (fun _ _ => rfl) fun _ _ => rfl

theorem Stmt.alongsideList (cx : Context) (ts : List Stmt) :
    Alongside Stmt.tidyList (Stmt.walkScopesList Hoist.visitor cx ts)
      (Stmt.walkScopesList Hoist.visitor cx (Stmt.tidyList f ts)) (Stmt.walkScopesList Resolve.visitor cx) := by
  match ts with
  | [] => exact .atom (fun _ => rfl) fun _ => rfl
  | t :: ts =>
    have ht := (Stmt.alongside cx none t).slot
    have hts := Stmt.alongsideList cx ts
    rw [Stmt.tidyList]
    split
    next h => exact .skip h hts
    next h => exact .cons (Bool.eq_false_iff.2 h) ht hts

theorem Stmt.alongsideBlock (cx : Context) (ts : Option (List Stmt)) :
    Alongside Stmt.tidyBlock (Stmt.walkScopesBlock Hoist.visitor cx ts)
      (Stmt.walkScopesBlock Hoist.visitor cx (Stmt.tidyBlock f ts)) (Stmt.walkScopesBlock Resolve.visitor cx) := by
  match ts with
  | none => exact .atom (fun _ => rfl) fun _ => rfl
  | some ts => exact ((Stmt.alongsideList cx ts).inScope .block .block).map some (fun _ _ => rfl) fun _ _ => rfl

theorem ForHead.alongside (cx : Context) (head : ForHead) :
    Alongside ForHead.tidy (head.walkScopes Hoist.visitor cx) ((head.tidy f).walkScopes Hoist.visitor cx)
      (ForHead.walkScopes Resolve.visitor cx) := by
  match head with
  | .empty => exact .atom (fun _ => rfl) fun _ => rfl
  | .decl kind ds =>
    exact (Declarator.alongsideDecls cx.read kind false ds).map (ForHead.decl kind) (fun _ _ => rfl) fun _ _ => rfl
  | .expr e => exact (Expr.alongside cx e).map ForHead.expr (fun _ _ => rfl) fun _ _ => rfl

theorem Case.alongside (cx : Context) (c : Case) :
    Alongside Case.tidy (c.walkScopes Hoist.visitor cx) ((c.tidy f).walkScopes Hoist.visitor cx)
      (Case.walkScopes Resolve.visitor cx) := by
  match c with
  | .mk test body =>
    exact ((Expr.alongsideOpt cx test).pair (Stmt.alongsideList cx body)).map (fun p => Case.mk p.1 p.2)
      (fun _ _ => rfl) fun _ _ => rfl

theorem Case.alongsideList (cx : Context) (cs : List Case) :
    Alongside Case.tidyList (Case.walkScopesList Hoist.visitor cx cs)
      (Case.walkScopesList Hoist.visitor cx (Case.tidyList f cs)) (Case.walkScopesList Resolve.visitor cx) := by
  match cs with
  | [] => exact .atom (fun _ => rfl) fun _ => rfl
  | c :: cs =>
    exact ((Case.alongside cx c).pair (Case.alongsideList cx cs)).map (fun p => p.1 :: p.2)
      (fun _ _ => rfl) fun _ _ => rfl

end

/-- The tidied program is resolved to the tidied form of what the program is resolved to. -/
theorem Program.resolve_tidy (p : Program) : ∃ F info',
    (p.tidy f).resolve = (p.resolve.1.tidy (Resolve.stampIn F), info') ∧ Matches F p.resolve.2 info' := by
  obtain ⟨he, F, hF, hs, hr⟩ := Stmt.alongsideList hf {} p.body _ _ _ Hoist.Beside.start
  have hstart : Resolve.Beside F (Hoist.State.start.entering .program .program)
      (Hoist.State.start.entering .program .program)
      (Resolve.State.entering { info := (p.walkScopes Hoist.visitor Hoist.State.start).2.info, entered := 0, path := [] })
      (Resolve.State.entering
        { info := ((p.tidy f).walkScopes Hoist.visitor Hoist.State.start).2.info, entered := 0, path := [] }) := {
    table := hs.table
    path := by
      have h1 : KeptIn [1] 1 := .inr List.mem_cons_self
      exact congrArg (fun m => [m]) (h1.numberIn_eq hF).symm
    inside := fun m hm => hF.subset hm
    entered := rfl
    entered' := rfl
    first := hs.first
    zero_notMem := hs.zero_notMem }
  obtain ⟨h₁, h₂⟩ := hr F _ _ (List.prefix_refl F) hstart
  rw [← he] at h₁ h₂
  exact ⟨F, (p.tidy f).resolve.2, Prod.ext (congrArg Program.mk h₁) rfl, h₂.table⟩

end

end Deadwood
