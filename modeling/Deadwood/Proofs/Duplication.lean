import Deadwood.Proofs.Termination

/-!
# Passes duplicate nothing

A value that is inlined stands in two places until its declaration is swept, and variables that outlive a
dropped statement are declared anew.  Still there are never more nodes of a kind after a pass than before it,
nor more names declared, and no identifier of the resolved program is left twice.
-/

namespace Deadwood

open Elimination

/-! ### Nodes -/

/-- The kinds of syntax that create a value, have an effect or read one. -/
inductive NodeKind
  | call | new | assign | update | await | yield | member | func | arrow | cls | object | array | regExp
  | template
deriving DecidableEq, Repr, Inhabited

def ClassElement.isMethod : ClassElement → Bool
  | .method .. => true
  | _ => false

/-- The nodes of an expression apart from its parts.  A class has a function for each of its methods. -/
def Expr.nodes : Expr → List NodeKind
  | .call .. => [.call]
  | .new .. => [.new]
  | .assign .. => [.assign]
  | .update .. => [.update]
  | .await _ => [.await]
  | .yield .. => [.yield]
  | .member .. | .index .. => [.member]
  | .func _ => [.func]
  | .arrow .. | .arrowBlock .. => [.arrow]
  | .cls c => .cls :: (c.body.filter ClassElement.isMethod).map fun _ => .func
  | .object _ => [.object]
  | .array _ => [.array]
  | .regExp .. => [.regExp]
  | .template .. => [.template]
  | _ => []

/-- Counts the nodes of a kind.  The declaration of a function or class holds the function or class. -/
def Fold.nodes (k : NodeKind) : Fold Nat where
  empty := 0
  append := (· + ·)
  ident _ _ := 0
  expr e n := n + e.nodes.count k
  funcDecl f n := n + (Expr.func f).nodes.count k
  clsDecl c n := n + (Expr.cls c).nodes.count k

def Program.nodeCount (k : NodeKind) (p : Program) : Nat := p.fold (Fold.nodes k)

def Role.isBinding : Role → Bool
  | .binding _ => true
  | _ => false

/-- The identifiers that declare a name. -/
def Program.declaring (p : Program) : List Ident := p.fold (Fold.idents Role.isBinding)

/-- Whether an identifier of this role is numbered by resolution wherever it stands. -/
def Role.isNumbered (role : Role) : Bool := role = .reference || role.isBinding

/-- Collects the sites of the identifiers that are read, assigned to or declared. -/
def Fold.occurrences : Fold (List Site) where
  empty := []
  append := (· ++ ·)
  ident role id := if role.isNumbered then [id.site] else []

theorem Fold.occurrences_reference (id : Ident) : Fold.occurrences.ident .reference id = [id.site] := rfl

theorem Fold.occurrences_binding (kind : BindingKind) (id : Ident) :
    Fold.occurrences.ident (.binding kind) id = [id.site] := rfl

/-! ### Occurrences are distinct in a resolved program -/

namespace Hoist

/-- The sites of a piece of syntax are distinct and new between `s` and `t`. -/
structure Spans (a : List Site) (s t : State) : Prop where
  size : s.decls.size ≤ t.decls.size
  nodup : a.Nodup
  range : ∀ x ∈ a, s.decls.size ≤ x ∧ x < t.decls.size

namespace Spans

variable {a b c : List Site} {s t u : State}

theorem nil (h : s.decls.size ≤ t.decls.size) : Spans [] s t := ⟨h, List.nodup_nil, nofun⟩

theorem join (h : Spans a s t) (h' : Spans b t u) (hc : c.Perm (a ++ b)) : Spans c s u where
  size := Nat.le_trans h.size h'.size
  nodup := by
    refine hc.nodup_iff.2 (List.nodup_append.2 ⟨h.nodup, h'.nodup, fun x hx y hy => ?_⟩)
    exact Nat.ne_of_lt (Nat.lt_of_lt_of_le (h.range x hx).2 (h'.range y hy).1)
  range x hx := by
    rcases List.mem_append.1 (hc.mem_iff.1 hx) with hx | hx
    · exact ⟨(h.range x hx).1, Nat.lt_of_lt_of_le (h.range x hx).2 h'.size⟩
    · exact ⟨Nat.le_trans h.size (h'.range x hx).1, (h'.range x hx).2⟩

theorem append (h : Spans a s t) (h' : Spans b t u) : Spans (a ++ b) s u := h.join h' (.refl _)

theorem swap (h : Spans b s t) (h' : Spans a t u) : Spans (a ++ b) s u := h.join h' List.perm_append_comm

theorem congr {s' t' : State} (h : Spans a s t) (hs : s'.decls.size = s.decls.size)
    (ht : t'.decls.size = t.decls.size) : Spans a s' t' :=
  ⟨hs ▸ ht ▸ h.size, h.nodup, hs ▸ ht ▸ h.range⟩

theorem single {x : Site} (hx : x = s.decls.size) (hs : t.decls.size = s.decls.size + 1) : Spans [x] s t := by
  refine ⟨by omega, List.nodup_singleton _, fun y hy => ?_⟩
  rw [List.mem_singleton.1 hy, hx, hs]
  exact ⟨Nat.le_refl _, Nat.lt_succ_self _⟩

end Spans

theorem fresh_size (s : State) : (fresh s).2.decls.size = s.decls.size + 1 := Array.size_push ..

theorem fresh_le (s : State) : s.decls.size ≤ (fresh s).2.decls.size := fresh_size s ▸ Nat.le_succ _

theorem declare_decls (inHead : Bool) (id : Ident) (kind : BindingKind) (origin : Site → Origin) (s : State) :
    (declare inHead id kind origin s).2.decls.size = s.decls.size + 1 := by
  obtain ⟨t, rfl, hsize, -⟩ := declare_spec inHead id kind origin s
  exact hsize

theorem exportDeclared_decls (ids : List Ident) (s : State) :
    (exportDeclared ids s).2.decls.size = s.decls.size := by
  show (ids.foldl _ s).decls.size = _
  induction ids generalizing s with
  | nil => rfl
  | cons id ids ih =>
    refine (ih _).trans ?_
    dsimp only
    split <;> rfl

/-- Every identifier gets a site of its own. -/
theorem spans_walks : Walks visitor Fold.unit Fold.occurrences fun _ _ s a t => Spans a s t where
  empty := .nil (Nat.le_refl _)
  append h h' := h.append h'
  swap h h' := h.swap h'
  assoc h := by simpa only [Fold.occurrences, List.append_assoc] using h
  weaken _ h := h
  literal _ h := h
  hole := .nil (Nat.le_refl _)
  label _ := .nil (Nat.le_refl _)
  propertyName _ := .nil (Nat.le_refl _)
  refer w id s := by
    rw [Fold.occurrences_reference]
    exact .single rfl (fresh_size s)
  declare inHead id kind origin s _ := by
    rw [Fold.occurrences_binding]
    exact .single (declare_site ..) (declare_decls ..)
  exportName _ s := .nil (fresh_le s)
  exportDeclared ids h := h.congr rfl (exportDeclared_decls ids _)
  contain _ h := h.congr rfl rfl
  called _ h := h
  inScope _ act k kind opener h s := (h (s.entering kind opener)).congr rfl rfl
  straddle act k l kind opener h s hb := by
    obtain ⟨t, ha, hc⟩ := h (s.entering kind opener)
    have hac : Spans _ s (visitor.inScope kind opener act s).2 := (ha.append hc).congr rfl rfl
    refine hb.join hac ?_
    exact List.perm_append_comm_assoc ..
  scope_map f act _ _ := rfl
  expr _ h := h
  stmt _ _ h := h
  foreign specs source s := by
    have hall : Fold.occurrences.all (fun e : ExportSpec => Fold.occurrences.ident .exported e.source) specs = Fold.occurrences.empty :=
      Fold.all_eq_empty _ rfl (fun _ => rfl) specs
    simp only [hall]
    exact .nil (Nat.le_refl _)
  property _ h := h
  element _ _ h := (Spans.nil (fresh_le _)).append h
  declarator _ _ h h' := (Spans.nil (fresh_le _)).append (h.swap h')
  func _ _ h := h
  funcNamed inHead container id f f' a b s t hf hf' h := by
    rw [Fold.occurrences_binding]
    have hd : Spans _ (visitor.contain container s).2 (visitor.declare inHead id .func .func _).2 :=
      .single (declare_site inHead id .func .func _) (declare_decls ..)
    exact (hd.append h).congr rfl rfl
  cls _ _ _ h h' := h.append h'
  clsNamed inHead container id c c' a b a' b' s t u _ hc hc' h h' := by
    rw [Fold.occurrences_binding]
    have hd : Spans _ (visitor.contain container t).2 (visitor.declare inHead id .cls .cls _).2 :=
      .single (declare_site inHead id .cls .cls _) (declare_decls ..)
    exact h.append (h'.swap (hd.congr rfl rfl))

end Hoist

theorem Resolve.refer_site (writing : Bool) (id : Ident) (s : Resolve.State) :
    (Resolve.refer writing id s).1.site = id.site := by
  simp only [Resolve.refer, run_bind, run_get]
  cases s.info.lookupIn s.path id.name <;> rfl

/-- Binding the references leaves the sites alone. -/
theorem Resolve.occurrences_walks :
    Walks visitor Fold.occurrences Fold.occurrences fun _ a _ b _ => a = b where
  empty := rfl
  append h h' := congrArg₂ (· ++ ·) h h'
  swap h h' := congrArg₂ (· ++ ·) h' h
  assoc h := by simpa only [Fold.occurrences, List.append_assoc] using h
  weaken _ h := h
  literal _ h := h
  hole := rfl
  label _ := rfl
  propertyName _ := rfl
  refer w id s := by
    rw [Fold.occurrences_reference, Fold.occurrences_reference]
    exact congrArg (fun x => [x]) (refer_site w id s).symm
  declare inHead id kind origin s _ := by
    rw [Fold.occurrences_binding, Fold.occurrences_binding]
    exact congrArg (fun x => [x]) (declare_keeps id s).1.symm
  exportName _ _ := rfl
  exportDeclared _ h := h
  contain _ h := h
  called _ h := h
  inScope _ act k kind opener h s := h { s with entered := s.entered + 1, path := (s.entered + 1) :: s.path }
  straddle act k l kind opener h s hb := by
    obtain ⟨_, ha, hc⟩ := h { s with entered := s.entered + 1, path := (s.entered + 1) :: s.path }
    exact congrArg₂ (· ++ ·) ha (congrArg₂ (· ++ ·) hb hc)
  scope_map f act _ _ := rfl
  expr _ h := h
  stmt _ _ h := h
  foreign _ _ _ := rfl
  property _ h := h
  element _ _ h := h
  declarator _ _ h h' := congrArg₂ (· ++ ·) h' h
  func _ _ h := h
  funcNamed inHead container id f f' a b s t _ _ h := by
    rw [Fold.occurrences_binding, Fold.occurrences_binding]
    exact congrArg₂ List.cons (declare_keeps id s).1.symm h
  cls _ _ _ h h' := congrArg₂ (· ++ ·) h h'
  clsNamed inHead container id c c' a b a' b' s t u _ _ _ h h' := by
    rw [Fold.occurrences_binding, Fold.occurrences_binding]
    exact congrArg₂ (· ++ ·) h (congrArg₂ List.cons (declare_keeps id t).1.symm h')

/-- No two identifiers of a resolved program have the same site. -/
theorem Program.resolve_occurrences_nodup (p : Program) : (p.resolve.1.fold Fold.occurrences).Nodup := by
  have hspans := Program.walkScopes_walks Hoist.spans_walks p Hoist.State.start
  rw [Program.resolve_eq]
  have heq := Program.walkScopes_walks Resolve.occurrences_walks
    (p.walkScopes Hoist.visitor Hoist.State.start).1 (p.walkScopes Hoist.visitor Hoist.State.start).2.resolving
  exact heq ▸ hspans.nodup

/-! ### Tariffs that count -/

theorem ClassElement.isMethod_head (e : ClassElement) : e.head.isMethod = e.isMethod := by
  cases e <;> rfl

/-- The methods of a class are among the kinds of its elements. -/
theorem Class.methods_eq (name : Option Ident) (superclass : Option Expr) (body : List ClassElement)
    (decorators : List Expr) :
    (Expr.cls (.mk name superclass (body.map ClassElement.head) decorators)).nodes =
      .cls :: (body.filter ClassElement.isMethod).map fun _ => .func := by
  have hfilter : ClassElement.isMethod ∘ ClassElement.head = ClassElement.isMethod :=
    funext ClassElement.isMethod_head
  show NodeKind.cls :: ((body.map ClassElement.head).filter ClassElement.isMethod).map _ = _
  rw [List.filter_map, List.map_map, hfilter]
  rfl

theorem Expr.nodes_head (e : Expr) : e.head.nodes = e.nodes := by
  cases e with
  | cls c =>
    cases c with
    | mk name superclass body decorators => exact Class.methods_eq ..
  | _ => rfl

theorem Expr.nodes_form (e : Expr) : e.form.nodes = e.nodes := by
  cases e with
  | cls c =>
    cases c with
    | mk name superclass body decorators => exact Class.methods_eq ..
  | _ => rfl

namespace Tariff

/-- Charges for the nodes of a kind. -/
def nodes (k : NodeKind) : Tariff :=
  { Tariff.free with
    expr := fun e => e.nodes.count k
    expr_of_head := fun {e e'} h => by rw [← e.nodes_head, h, e'.nodes_head]
    number := fun _ _ => rfl
    unary := fun _ _ => rfl
    seq := fun _ => rfl }

/-- Charges for the identifiers of some roles, however a name is declared. -/
def idents (p : Role → Ident → Bool) (hbinding : ∀ kind kind' id, p (.binding kind) id = p (.binding kind') id)
    (hunsited : ∀ kind id, p (.binding kind) { id with site := 0 } → p (.binding kind) id) : Tariff :=
  { Tariff.free with
    ident := fun role id => (p role id).toNat
    binding := fun kind kind' id => by rw [hbinding kind kind']
    unsited := fun kind id => Bool.toNat_le_toNat (hunsited kind id) }

/-- Charges for the names that are declared. -/
def declaring : Tariff := idents (fun role _ => role.isBinding) (fun _ _ _ => rfl) fun _ _ h => h

/-- Charges for the identifiers at a site. -/
def occurrence (x : Site) (hx : x ≠ 0) : Tariff :=
  idents (fun role id => role.isNumbered && id.site = x) (fun _ _ _ => rfl) fun _ id h => by
    simp only [Bool.and_eq_true, decide_eq_true_eq] at h
    exact absurd h.2.symm hx

variable {p : Role → Ident → Bool} {hbinding : ∀ kind kind' id, p (.binding kind) id = p (.binding kind') id}
  {hunsited : ∀ kind id, p (.binding kind) { id with site := 0 } → p (.binding kind) id}

/-- Such a tariff counts in a list of the identifiers. -/
theorem fold_idents {β : Type} {g : Role → Ident → List β} {q : β → Bool}
    (hg : ∀ role id, (p role id).toNat = (g role id).countP q) (prog : Program) :
    prog.fold (idents p hbinding hunsited).fold =
      (prog.fold { empty := [], append := (· ++ ·), ident := g }).countP q := by
  have hident : (idents p hbinding hunsited).identCost = fun role id => (p role id).toNat :=
    funext fun _ => funext fun _ => Nat.zero_add _
  have hfold : (idents p hbinding hunsited).fold =
      { empty := 0, append := (· + ·), ident := fun role id => (p role id).toNat } := by
    rw [fold, hident]
    simp only [exprCost, stmtCost, declaratorCost, idents, free, Nat.mul_zero, Nat.add_zero]
  rw [hfold]
  refine Program.fold_related (R := fun (n : Nat) (l : List β) => n = l.countP q) ?_ prog
  exact {
    empty := rfl
    append := fun h h' => (congrArg₂ (· + ·) h h').trans List.countP_append.symm
    ident := hg
    expr := fun _ _ _ _ h => h
    stmt := fun _ _ _ _ h => h
    declarator := fun _ _ _ _ h => h
    element := fun _ _ _ _ h => h
    funcDecl := fun _ h => h
    clsDecl := fun _ h => h
    property := fun _ _ _ h => h
    hole := rfl }

theorem fold_nodes (k : NodeKind) (prog : Program) : prog.fold (nodes k).fold = prog.nodeCount k := by
  have hfold : (nodes k).fold = Fold.nodes k := by
    simp only [fold, exprCost, stmtCost, declaratorCost, nodes, free, Nat.mul_zero, Nat.zero_add, Nat.add_zero]
    rfl
  rw [hfold, Program.nodeCount]

theorem fold_declaring (prog : Program) : prog.fold declaring.fold = prog.declaring.length := by
  rw [← List.countP_true]
  refine fold_idents (fun role id => ?_) prog
  cases role.isBinding <;> rfl

theorem fold_occurrence (x : Site) (hx : x ≠ 0) (prog : Program) :
    prog.fold (occurrence x hx).fold = (prog.fold Fold.occurrences).count x := by
  refine fold_idents (fun role id => ?_) prog
  cases role.isNumbered with
  | false => rfl
  | true =>
    by_cases h : id.site = x <;> simp [h]

theorem nodes_stampless (k : NodeKind) : (nodes k).Stampless where
  ident _ _ _ := rfl
  expr {e e'} h := by
    show e.nodes.count k = e'.nodes.count k
    rw [← e.nodes_form, h, e'.nodes_form]

theorem declaring_stampless : declaring.Stampless := ⟨fun _ _ _ => rfl, fun _ => rfl⟩

end Tariff

/-! ### A pass -/

/-- A pass leaves no more nodes of any kind than there were, and no more names that are declared, and no
identifier of the resolved program stands in two places of what it leaves.  That what survives stands in one place
only is said of identifiers, which have sites to tell them apart; of nodes without identifiers, two of a kind are
alike, and their counts say that there are not more of them. -/
theorem Program.eliminateOnce_duplicates_nothing {p q : Program} {rs : List Change}
    (h : p.eliminateOnce = some (q, rs)) :
    (∀ k, q.nodeCount k ≤ p.nodeCount k) ∧ q.declaring.length ≤ p.declaring.length ∧
      ∀ x ≠ 0, (q.fold Fold.occurrences).count x ≤ 1 := by
  refine ⟨fun k => ?_, ?_, fun x hx => ?_⟩
  · have hk := Program.eliminateOnce_cost (Tariff.nodes_stampless k) h
    rwa [Tariff.fold_nodes, Tariff.fold_nodes] at hk
  · have hd := Program.eliminateOnce_cost Tariff.declaring_stampless h
    rwa [Tariff.fold_declaring, Tariff.fold_declaring] at hd
  · have hocc := Program.eliminateOnce_resolved_cost (Tariff.occurrence x hx) h
    rw [Tariff.fold_occurrence, Tariff.fold_occurrence] at hocc
    exact Nat.le_trans hocc (List.nodup_iff_count_le_one.1 p.resolve_occurrences_nodup x)

/-- `const f = () => g(); f();` -/
def sampleMoved : Program where
  body := [.decl .const [.mk 0 (.ident { name := "f" }) (some
      (.arrow [] none (.call (.ident { name := "g" }) [] false) false))],
    .expr (.call (.ident { name := "f" }) [] false)]

/-- The arrow takes the place of its name. -/
theorem Program.eliminateOnce_duplicates_nothing_sample : ∃ q rs, sampleMoved.eliminateOnce = some (q, rs) ∧
    rs.map Change.rule = [.inline] ∧ q.nodeCount .arrow = 1 ∧ q.nodeCount .call = 2 ∧ q.declaring = [] ∧
    (∀ k, q.nodeCount k ≤ sampleMoved.nodeCount k) ∧ q.declaring.length ≤ sampleMoved.declaring.length ∧
    ∀ x ≠ 0, (q.fold Fold.occurrences).count x ≤ 1 := by
  have hrun : sampleMoved.eliminateOnce.map (fun r =>
      (r.2.map Change.rule, r.1.nodeCount .arrow, r.1.nodeCount .call, r.1.declaring)) =
      some ([.inline], 1, 2, []) := by decide +kernel
  obtain ⟨⟨q, rs⟩, h, he⟩ := Option.map_eq_some_iff.1 hrun
  simp only [Prod.mk.injEq] at he
  exact ⟨q, rs, h, he.1, he.2.1, he.2.2.1, he.2.2.2, Program.eliminateOnce_duplicates_nothing h⟩

end Deadwood
