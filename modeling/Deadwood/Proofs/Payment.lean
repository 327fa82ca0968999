import Deadwood.Proofs.Charge
import Mathlib.Algebra.GroupWithZero.Nat

/-!
# Statements pay for what outlives them

A statement that is dropped leaves a declaration of its variables that are still used.  Each of these has
been paid for where it was declared, unless its declarator is dead; but then it is not used.  So the
statement costs at least as much as what outlives it, and every rule for statements is paid for.
-/

namespace Deadwood

open Elimination

namespace Ledger

variable {L : Ledger} {a b c : Piece} {s t u : State} {σ : Site}

/-! ### What outlives a statement -/

/-- Declarators that are dead declare nothing that is used. -/
def Unused (used : Site → Bool) (a : Piece) (D : List Site) : Prop :=
  ∀ e ∈ a.outer, e.1 ∈ D → ∀ x ∈ e.2, used x = false

/-- What variables of the given names cost. -/
def namesCost (L : Ledger) (ids : List Ident) : Nat := (ids.map (L.tariff.identCost (.binding .var))).sum

theorem namesCost_sublist {ids ids' : List Ident} (h : ids.Sublist ids') : L.namesCost ids ≤ L.namesCost ids' :=
  (h.map _).sum_le_sum fun _ _ => Nat.zero_le _

/-- The used names among `ids` cost no more than the piece that declares them. -/
structure Covers (L : Ledger) (used : Site → Bool) (a : Piece) (ids : List Ident) : Prop where
  binders : ids.map Ident.site ⊆ a.binders
  cost : ∀ D R, Unused used a D → L.namesCost (ids.filter fun id => used id.site) ≤ a.cost.val D R

theorem Covers.nil {used : Site → Bool} (a : Piece) : L.Covers used a [] :=
  ⟨List.nil_subset _, fun _ _ _ => Nat.zero_le _⟩

theorem Covers.append {used : Site → Bool} {a a' : Piece} {ids ids' : List Ident}
    (h : L.Covers used a ids) (h' : L.Covers used a' ids') : L.Covers used (a.append a') (ids ++ ids') where
  binders := by
    rw [List.map_append]
    exact List.append_subset.2 ⟨fun x hx => List.mem_append_left _ (h.binders hx),
      fun x hx => List.mem_append_right _ (h'.binders hx)⟩
  cost D R hu := by
    rw [List.filter_append, namesCost, List.map_append, List.sum_append]
    exact Nat.add_le_add (h.cost D R fun e he => hu e (List.mem_append_left _ he))
      (h'.cost D R fun e he => hu e (List.mem_append_right _ he))

/-- A declarator that is not dead costs at least as much as the names it declares. -/
theorem declarator_covers {used : Site → Bool} (kind : BindingKind) (site : Site) (target : Pattern)
    (init : Option Expr)
    (h : L.Covers used ((target.fold L.fold kind).append (Expr.foldOpt L.fold init))
      (target.fold Stmt.varFold kind ++ Expr.foldOpt Stmt.varFold init)) :
    L.Covers used ((Declarator.mk site target init).fold L.fold kind)
      (target.fold Stmt.varFold kind ++ Expr.foldOpt Stmt.varFold init) := by
  refine ⟨h.binders, fun D R hu => ?_⟩
  by_cases hs : site ∈ D
  · -- Nothing that a dead declarator declares is used.
    have hnone : ∀ id ∈ target.fold Stmt.varFold kind ++ Expr.foldOpt Stmt.varFold init,
        ¬ used id.site = true := by
      intro id hid
      have hx := h.binders (List.mem_map_of_mem hid)
      rw [hu _ List.mem_cons_self hs _ hx]
      exact Bool.false_ne_true
    rw [List.filter_eq_nil_iff.2 hnone]
    exact Nat.zero_le _
  · have hin := h.cost D R fun e he => hu e (List.mem_cons_of_mem _ he)
    cases hp : target.isName with
    | true =>
      cases target with
      | ident id =>
        have hname : L.tariff.nameCost (.ident id) ≤
            ((Declarator.mk site (.ident id) init).fold L.fold kind).cost.val D R :=
          Cost.le_declarator_name hs
        refine Nat.le_trans (namesCost_sublist List.filter_sublist) (Nat.le_trans ?_ hname)
        have hi : Expr.foldOpt Stmt.varFold init = [] := by
          cases init with
          | none => rfl
          | some e => exact Stmt.varFold_expr e
        rw [hi, List.append_nil]
        show L.namesCost (if _ then [id] else []) ≤ _
        split
        · exact Nat.le_refl _
        · exact Nat.zero_le _
      | _ => cases hp
    | false =>
      rw [Visit.pattern_cost kind site init hp, Cost.declarator_pattern hs]
      omega

theorem covers_relates (used : Site → Bool) : L.fold.Relates Stmt.varFold (L.Covers used) where
  empty := .nil _
  append h h' := h.append h'
  ident role id := by
    by_cases h : role = .binding .var
    · subst h
      refine ⟨List.Subset.refl _, fun D R _ => ?_⟩
      exact namesCost_sublist List.filter_sublist
    · have hi : Stmt.varFold.ident role id = [] := if_neg (by simpa using h)
      rw [hi]
      exact .nil _
  expr _ _ _ _ _ := .nil _
  stmt x a ids _ h := ⟨h.binders, fun D R hu => Nat.le_add_right_of_le (h.cost D R hu)⟩
  declarator kind site target init h := declarator_covers kind site target init h
  element kind site target init h := ⟨h.binders, fun D R hu => Nat.le_add_right_of_le (h.cost D R hu)⟩
  funcDecl _ _ := .nil _
  clsDecl _ _ := .nil _
  property _ _ _ h := h
  hole := .nil _

/-- A state in which nothing that is dead is used. -/
theorem Sound.unused (h : L.Sound s) (ho : ∀ e ∈ a.outer, e ∈ L.entries ∨ e.1 = 0) :
    Unused s.isUsedAt a s.dead := by
  intro e he hd
  obtain ⟨e', he', hee', hu⟩ := h.dead e.1 hd
  rcases ho e he with hmem | hz
  · rw [L.entry_unique hmem he' hee'.symm]
    exact hu
  · have hpos := L.pos e' he'
    rw [hee', hz] at hpos
    exact absurd hpos (Nat.lt_irrefl 0)

theorem Unused.of_grows {D : List Site} (h : Unused s.isUsedAt a D) (hg : s.Grows t) :
    Unused t.isUsedAt a D := fun e he hd x hx => hg.isUsedAt (h e he hd x hx)

theorem survivors_sublist (s : State) (seen : List BindingId) (ids : List Ident) :
    (s.survivors seen ids).Sublist (ids.filter fun id => s.isUsedAt id.site) := by
  induction ids generalizing seen with
  | nil => exact .slnil
  | cons id ids ih =>
    have hu : s.isUsedAt id.site = s.isReferenced (s.info.declaration? id) := rfl
    rw [State.survivors, List.filter_cons, hu]
    cases s.info.declaration? id with
    | none => exact ih seen
    | some i =>
      dsimp only
      cases s.isReferenced (some i) with
      | false => exact ih seen
      | true =>
        rw [Bool.true_and, if_pos rfl]
        split
        · exact (ih _).cons_cons id
        · exact (ih _).cons id

/-- A piece that a visit leaves alone. -/
structure Inert (c : Piece) : Prop where
  refs : c.refs = []
  own : c.own = []
  outer : ∀ e ∈ c.outer, e.1 = 0

theorem Inert.append (hb : Inert b) (hc : Inert c) : Inert (b.append c) where
  refs := (congrArg₂ (· ++ ·) hb.refs hc.refs).trans (List.append_nil _)
  own := (congrArg₂ (· ++ ·) hb.own hc.own).trans (List.append_nil _)
  outer e he := (List.mem_append.1 he).elim (hb.outer e) (hc.outer e)

/-- The declarator of a variable that outlives its declaration. -/
abbrev bare (id : Ident) : Declarator := .mk 0 (.ident { id with site := 0 }) none

/-- It costs no more than it did in its declaration. -/
theorem bare_cost (id : Ident) (D R : List Site) :
    ((bare id).fold L.fold .var).cost.val D R ≤ L.tariff.identCost (.binding .var) id := by
  have hle : ((bare id).fold L.fold .var).cost.val D R ≤
      max (L.tariff.identCost (.binding .var) { id with site := 0 })
        (L.tariff.identCost (.binding .var) { id with site := 0 } + 0) + 0 * L.tariff.unit :=
    Cost.declarator_name_le
  have hid := L.tariff.unsited .var id
  rw [Tariff.identCost] at hle ⊢
  omega

theorem bare_inert (ids : List Ident) : Inert (Declarator.foldList L.fold .var (ids.map bare)) ∧
    ∀ D R, (Declarator.foldList L.fold .var (ids.map bare)).cost.val D R ≤ L.namesCost ids := by
  induction ids with
  | nil => exact ⟨⟨rfl, rfl, nofun⟩, fun _ _ => Nat.le_refl 0⟩
  | cons id ids ih =>
    constructor
    · refine Inert.append ⟨rfl, rfl, fun e he => ?_⟩ ih.1
      cases List.mem_singleton.1 he
      rfl
    · intro D R
      exact Nat.add_le_add (bare_cost id D R) (ih.2 D R)

theorem survivingVars_eq (s : State) (x : Stmt) :
    s.survivors [] x.varNames = [] ∧ s.survivingVars x = [] ∨
      s.survivingVars x = [.decl .var ((s.survivors [] x.varNames).map bare)] := by
  unfold State.survivingVars
  split
  next h => exact .inl ⟨h, rfl⟩
  · exact .inr rfl

theorem survivingVars_inert (s : State) (x : Stmt) : Inert (Stmt.foldList L.fold (s.survivingVars x)) := by
  rcases survivingVars_eq s x with ⟨-, he⟩ | he
  · rw [he]
    exact ⟨rfl, rfl, nofun⟩
  · rw [he]
    have hb := (bare_inert (L := L) (s.survivors [] x.varNames)).1
    exact Inert.append ⟨hb.refs, hb.own, hb.outer⟩ ⟨rfl, rfl, nofun⟩

/-- A statement pays for what outlives it. -/
theorem survivingVars_cost {x : Stmt} {D : List Site} (h : Unused s.isUsedAt (x.fold L.fold) D)
    (R D' R' : List Site) : (Stmt.foldList L.fold (s.survivingVars x)).cost.val D' R' + L.tariff.stmtCost x ≤
      (x.fold L.fold).cost.val D R + L.tariff.unit := by
  rcases survivingVars_eq s x with ⟨-, he⟩ | he
  · have hb := stmtCost_le (L := L) x D R
    rw [he]
    show 0 + _ ≤ _
    omega
  · obtain ⟨a, ids, ha, hids, -, hc⟩ := x.parts_related (covers_relates (L := L) s.isUsedAt)
    have hids : x.varNames = ids := hids
    have hlen := namesCost_sublist (L := L) (survivors_sublist s [] ids)
    have hcost := hc.cost D R fun e he => h e (ha ▸ he)
    have hbare := (bare_inert (L := L) (s.survivors [] ids)).2 D' R'
    rw [he, ha, hids]
    show (Declarator.foldList L.fold .var _).cost.val D' R' + 1 * L.tariff.unit + 0 + _ ≤
      a.cost.val D R + L.tariff.stmtCost x + L.tariff.unit
    omega

/-! ### Pieces within pieces -/

/-- A piece holds nothing that is not in another one, and costs at most `n` more. -/
structure Within (D : List Site) (n : Nat) (c b : Piece) : Prop where
  refs : c.refs ⊆ b.refs
  own : c.own ⊆ b.own
  outer : ∀ e ∈ c.outer, e ∈ b.outer ∨ e.1 = 0
  cost : c.cost.val D [] ≤ b.cost.val D [] + n

namespace Within

variable {D : List Site} {n m : Nat} {b' c' : Piece}

theorem of_same (h : b.Same c) : Within D 0 c b where
  refs := h.refs ▸ List.Subset.refl _
  own := h.own ▸ List.Subset.refl _
  outer _ he := .inl (h.outer ▸ he)
  cost := by rw [h.cost]; exact Nat.le_refl _

theorem refl (b : Piece) : Within D 0 b b := of_same (.refl b)

theorem mono (h : Within D n c b) (hm : n ≤ m) : Within D m c b :=
  { h with cost := Nat.le_trans h.cost (Nat.add_le_add_left hm _) }

theorem trans (h : Within D n c b) (h' : Within D m b a) : Within D (m + n) c a where
  refs := List.Subset.trans h.refs h'.refs
  own := List.Subset.trans h.own h'.own
  outer e he := (h.outer e he).elim (h'.outer e) .inr
  cost := by
    have := h.cost
    have := h'.cost
    omega

theorem append (h : Within D n c b) (h' : Within D m c' b') :
    Within D (n + m) (c.append c') (b.append b') where
  refs := List.append_subset.2 ⟨fun x hx => List.mem_append_left _ (h.refs hx),
    fun x hx => List.mem_append_right _ (h'.refs hx)⟩
  own := List.append_subset.2 ⟨fun x hx => List.mem_append_left _ (h.own hx),
    fun x hx => List.mem_append_right _ (h'.own hx)⟩
  outer e he := by
    rcases List.mem_append.1 he with he | he
    · exact (h.outer e he).imp (List.mem_append_left _) id
    · exact (h'.outer e he).imp (List.mem_append_right _) id
  cost := by
    have := h.cost
    have := h'.cost
    simp only [Piece.append, Cost.add_val]
    omega

theorem comm (b c : Piece) : Within D 0 (b.append c) (c.append b) where
  refs := List.append_subset.2 ⟨List.subset_append_right _ _, List.subset_append_left _ _⟩
  own := List.append_subset.2 ⟨List.subset_append_right _ _, List.subset_append_left _ _⟩
  outer _ he := .inl (List.mem_append.2 (List.mem_append.1 he).symm)
  cost := Nat.le_of_eq (Nat.add_comm _ _)

theorem nil (b : Piece) : Within D 0 .empty b :=
  ⟨List.nil_subset _, List.nil_subset _, nofun, Nat.zero_le _⟩

theorem right (b c : Piece) : Within D 0 c (b.append c) where
  refs := List.subset_append_right _ _
  own := List.subset_append_right _ _
  outer _ he := .inl (List.mem_append_right _ he)
  cost := Nat.le_add_left _ _

theorem foldList_filter (p : Stmt → Bool) (ts : List Stmt) :
    Within D 0 (Stmt.foldList L.fold (ts.filter p)) (Stmt.foldList L.fold ts) := by
  induction ts with
  | nil => exact refl _
  | cons x ts ih =>
    rw [List.filter_cons]
    split
    · exact (refl _).append ih
    · refine ⟨fun y hy => List.mem_append_right _ (ih.refs hy),
        fun y hy => List.mem_append_right _ (ih.own hy),
        fun e he => (ih.outer e he).imp (List.mem_append_right _) id, ?_⟩
      exact Nat.le_trans ih.cost (Nat.le_add_left _ _)

/-- A statement costs no more than its parts and its own. -/
theorem stmt (x : Stmt) (a : Piece) : Within D (L.tariff.stmtCost x) (L.fold.stmt x a) a where
  refs := List.Subset.refl _
  own := List.Subset.refl _
  outer _ he := .inl he
  cost := Nat.le_refl _

theorem parts (x : Stmt) (a : Piece) : Within D 0 a (L.fold.stmt x a) where
  refs := List.Subset.refl _
  own := List.Subset.refl _
  outer _ he := .inl he
  cost := Nat.le_add_right _ _

/-- Statements as one need a block at most. -/
theorem asOne (ts : List Stmt) :
    Within D (2 * L.tariff.unit) ((asOne ts).fold L.fold) (Stmt.foldList L.fold ts) := by
  match ts with
  | [] =>
    refine ⟨List.nil_subset _, List.nil_subset _, nofun, ?_⟩
    show 0 + 1 * L.tariff.unit ≤ 0 + 2 * L.tariff.unit
    omega
  | [x] =>
    rw [show Stmt.foldList L.fold [x] = x.fold L.fold from L.fold_lawful.empty_right _]
    exact (refl _).mono (Nat.zero_le _)
  | x :: y :: ts => exact stmt (.block (x :: y :: ts)) _

/-- The statements of a branch need a block at most. -/
theorem branchStmts (x : Stmt) :
    Within D (2 * L.tariff.unit) (Stmt.foldList L.fold (branchStmts x)) (x.fold L.fold) := by
  have hone (y : Stmt) : Stmt.foldList L.fold [y] = y.fold L.fold := L.fold_lawful.empty_right _
  unfold Elimination.branchStmts
  split
  next body =>
    split
    · rw [hone]
      exact (refl _).mono (Nat.zero_le _)
    · exact (parts (.block body) _).mono (Nat.zero_le _)
  · split
    · rw [hone]
      show Within D (2 * L.tariff.unit) (L.fold.stmt _ (Stmt.foldList L.fold [_])) _
      rw [hone]
      exact stmt (.block [_]) _
    · rw [hone]
      exact (refl _).mono (Nat.zero_le _)

theorem survivingVars {x : Stmt} (h : Unused s.isUsedAt (x.fold L.fold) D) :
    Within D 0 (Stmt.foldList L.fold (s.survivingVars x)) (x.fold L.fold) := by
  have hi := survivingVars_inert (L := L) s x
  have hc := survivingVars_cost (L := L) h [] D []
  have hb := L.unit_le_stmtCost x
  refine ⟨?_, ?_, fun e he => .inr (hi.outer e he), ?_⟩
  · rw [hi.refs]
    exact List.nil_subset _
  · rw [hi.own]
    exact List.nil_subset _
  · omega

end Within

/-! ### Finishing statements -/

section Finishing

variable {K : List Site} {n : Nat} {x y : Stmt}

theorem After.within (h : L.After K b t c u) {c' : Piece} (hw : Within u.dead n c' c)
    (hc : c.cost.val u.dead [] + n + L.spent u ≤ b.cost.val t.dead [] + L.spent t) :
    L.After K b t c' u where
  sound := h.sound
  dead := h.dead
  refs := List.Subset.trans hw.refs h.refs
  own := List.Subset.trans hw.own h.own
  outer e he := (hw.outer e he).elim (h.outer e) .inr
  cost := by
    have := hw.cost
    omega

theorem After.same (h : L.After K c t a u) (hs : b.Same c) : L.After K b t a u where
  sound := h.sound
  dead := h.dead
  refs := hs.refs ▸ h.refs
  own := hs.own ▸ h.own
  outer := hs.outer ▸ h.outer
  cost := hs.cost ▸ h.cost

/-- Statements are left in the place of one, in a list or alone. -/
def Finishes (L : Ledger) (K : List Site) (b : Piece) (t : State) (out : List Stmt × State) : Prop :=
  L.After K b t (Stmt.foldList L.fold out.1) out.2 ∧ L.After K b t ((asOne out.1).fold L.fold) out.2

theorem Finishes.same {out : List Stmt × State} (h : L.Finishes K c t out) (hs : b.Same c) :
    L.Finishes K b t out := ⟨h.1.same hs, h.2.same hs⟩

theorem Finishes.single (h : L.After K b t (x.fold L.fold) u) : L.Finishes K b t ([x], u) := by
  refine ⟨?_, h⟩
  rw [show Stmt.foldList L.fold [x] = x.fold L.fold from L.fold_lawful.empty_right _]
  exact h

theorem Finishes.nil (h : L.Sound u) (hd : ∀ σ ∈ u.dead, σ ∈ t.dead ∨ σ ∈ K)
    (hc : L.tariff.unit + L.spent u ≤ b.cost.val t.dead [] + L.spent t) : L.Finishes K b t ([], u) := by
  constructor
  · refine ⟨h, hd, List.nil_subset _, List.nil_subset _, nofun, ?_⟩
    show 0 + L.spent u ≤ _
    omega
  · refine ⟨h, hd, List.nil_subset _, List.nil_subset _, nofun, ?_⟩
    show 0 + 1 * L.tariff.unit + L.spent u ≤ _
    omega

theorem unary_same (op : UnaryOp) (e : Expr) : ((Expr.unary op e).fold L.fold).Same (e.fold L.fold) where
  cost := by
    have hz : L.tariff.exprCost (.unary op e) = 0 := by
      show 0 * _ + L.tariff.expr (.unary op e) = 0
      rw [L.tariff.unary, Nat.zero_mul]
    show (e.fold L.fold).cost.add (.const (L.tariff.exprCost (.unary op e))) = _
    rw [hz]
    rfl
  refs := rfl
  own := rfl
  binders := (e.fold_binders L).symm
  outer := (e.fold_outer L).symm

/-- A negation costs what is negated. -/
theorem negate_within {D : List Site} (e : Expr) : Within D 0 (e.negate.fold L.fold) (e.fold L.fold) := by
  unfold Expr.negate
  split
  · exact .of_same (unary_same _ _)
  · have hs := unary_same (L := L) .not e
    exact ⟨hs.refs ▸ List.Subset.refl _, hs.own ▸ List.Subset.refl _, fun _ he => .inl (hs.outer ▸ he),
      hs.cost ▸ Nat.le_refl _⟩

/-- A change is recorded, and the piece that is left costs less. -/
theorem After.of_records (h : L.Sound t) (hr : t.Records u) (hw : Within t.dead n c b)
    (hc : c.cost.val t.dead [] + L.tariff.unit ≤ b.cost.val t.dead []) : L.After K b t c u where
  sound := h.records hr
  dead _ hσ := .inl (hr.dead_eq ▸ hσ)
  refs := hw.refs
  own := hw.own
  outer := hw.outer
  cost := by
    rw [hr.dead_eq, L.spent_succ hr.changes_eq]
    omega

section Tests

variable {test : Expr} {yes : Stmt} {no : Option Stmt}

/-- What a test and its branches are within the statement. -/
theorem cond_within {D : List Site} {m : Nat} {a b : Piece} (ha : Within D n a (test.fold L.fold))
    (hb : Within D m b ((yes.fold L.fold).append (Stmt.foldOpt L.fold no))) :
    Within D (n + m) (a.append b) ((Stmt.cond test yes no).fold L.fold) := by
  have hw := (ha.append hb).trans (Within.parts (L := L) (.cond test yes no) _)
  rw [Nat.zero_add] at hw
  exact hw

/-- An `if` that is left loses an empty branch, which pays for the change. -/
theorem normalize_after (h : L.Sound t) :
    L.After K ((Stmt.cond test yes no).fold L.fold) t ((normalize test yes no t).1.fold L.fold)
      (normalize test yes no t).2 := by
  rcases normalize_cases test yes no t with he | ⟨other, rfl, hrec, he | he⟩
  · rw [he]
    exact .of_same h (.refl _)
  · rw [he]
    have hb := Nat.le_trans (L.unit_le_stmtCost other) (stmtCost_le other t.dead [])
    refine .of_records h hrec ((Within.stmt _ _).trans
      (cond_within (.refl _) ((Within.refl _).append (.nil _)))) ?_
    show (test.fold L.fold).cost.val _ _ + ((yes.fold L.fold).cost.val _ _ + 0) + 5 * L.tariff.unit + _ ≤
      (test.fold L.fold).cost.val _ _ + ((yes.fold L.fold).cost.val _ _ + (other.fold L.fold).cost.val _ _) +
        5 * L.tariff.unit
    omega
  · rw [he]
    have hb := Nat.le_trans (L.unit_le_stmtCost yes) (stmtCost_le yes t.dead [])
    have hn := (negate_within (L := L) (D := t.dead) test).cost
    refine .of_records h hrec ((Within.stmt _ _).trans
      (cond_within (negate_within test) (((Within.refl _).append (.nil _)).trans (.comm _ _)))) ?_
    show (test.negate.fold L.fold).cost.val _ _ + ((other.fold L.fold).cost.val _ _ + 0) + 5 * L.tariff.unit + _ ≤
      (test.fold L.fold).cost.val _ _ + ((yes.fold L.fold).cost.val _ _ + (other.fold L.fold).cost.val _ _) +
        5 * L.tariff.unit
    omega

theorem dropped_within {D : List Site} (drop : Option Stmt)
    (h : Unused s.isUsedAt (Stmt.foldOpt L.fold drop) D) :
    Within D 0 (Stmt.foldList L.fold ((drop.map s.survivingVars).getD [])) (Stmt.foldOpt L.fold drop) := by
  cases drop with
  | none => exact .refl _
  | some x => exact .survivingVars h

theorem branch_within {D : List Site} (keep : Option Stmt) :
    Within D (2 * L.tariff.unit) (Stmt.foldList L.fold ((keep.map branchStmts).getD []))
      (Stmt.foldOpt L.fold keep) := by
  cases keep with
  | none => exact (Within.refl _).mono (Nat.zero_le _)
  | some x => exact .branchStmts x

/-- What is left of an `if` whose test is known: the test pays for the change and two blocks. -/
theorem foldIf_finishes (h : L.Sound t)
    (ho : ∀ e ∈ ((Stmt.cond test yes no).fold L.fold).outer, e ∈ L.entries ∨ e.1 = 0) :
    L.Finishes K ((Stmt.cond test yes no).fold L.fold) t (foldIf test yes no t) := by
  rcases foldIf_cases test yes no t with he | ⟨keep, drop, v, hkd, hs, he, hrec, -⟩
  · rw [he]
    exact .single (normalize_after h)
  · have hunused := (h.unused ho).of_grows hs.grows
    have hw : Within t.dead (2 * L.tariff.unit) (Stmt.foldList L.fold (foldIf test yes no t).1)
        ((yes.fold L.fold).append (Stmt.foldOpt L.fold no)) := by
      rw [he, L.fold_lawful.foldList_append]
      rcases hkd with ⟨rfl, rfl⟩ | ⟨rfl, rfl⟩
      · have hdrop := dropped_within (L := L) drop fun e he =>
          hunused e (List.mem_append_right _ (List.mem_append_right _ he))
        exact ((hdrop.append (branch_within (some yes))).trans (.comm _ _)).mono (by omega)
      · have hdrop := dropped_within (L := L) (some yes) fun e he =>
          hunused e (List.mem_append_right _ (List.mem_append_left _ he))
        exact (hdrop.append (branch_within keep)).mono (by omega)
    have hc := hw.cost
    have hcost : ((Stmt.cond test yes no).fold L.fold).cost.val t.dead [] =
        (test.fold L.fold).cost.val t.dead [] +
          ((yes.fold L.fold).append (Stmt.foldOpt L.fold no)).cost.val t.dead [] + 5 * L.tariff.unit := rfl
    have hafter : L.After K ((Stmt.cond test yes no).fold L.fold) t
        (Stmt.foldList L.fold (foldIf test yes no t).1) (foldIf test yes no t).2 := by
      refine .of_records h hrec (hw.trans ((Within.right _ _).trans (.parts _ _))) ?_
      omega
    refine ⟨hafter, hafter.within (.asOne _) ?_⟩
    rw [hrec.dead_eq, L.spent_succ hrec.changes_eq]
    omega

end Tests

theorem removeDecls_heads {r : Removal} (hr : ∀ σ, r.dropsDeclarator σ = false) (ds : List Declarator)
    (m : Bool) : (Declarator.removeDecls r ds m).1.map Declarator.head = ds.map Declarator.head := by
  induction ds generalizing m with
  | nil => rfl
  | cons d ds ih =>
    rw [Declarator.removeDecls, if_neg (by rw [hr]; exact Bool.false_ne_true)]
    refine List.cons_eq_cons.2 ⟨?_, ih _⟩
    cases d
    rfl

theorem renewStmt_declarators (s : State) (x : Stmt) :
    (s.renewStmt x).declarators.map Declarator.head = x.declarators.map Declarator.head := by
  unfold State.renewStmt
  split
  · rfl
  · cases x with
    | decl kind ds => exact removeDecls_heads (fun _ => rfl) ds false
    | func f =>
      show (Stmt.remove s.renewal (.func f) false).1.declarators.map _ = _
      rw [Stmt.remove]
      split <;> rfl
    | cls c =>
      show (Stmt.remove s.renewal (.cls c) false).1.declarators.map _ = _
      rw [Stmt.remove]
      split <;> rfl
    | _ => rfl

/-- The declarators that a visit has left of a statement are in the ledger. -/
theorem Done.declarators (hr : L.Ready (x.fold L.fold) s) (hd : L.Done (x.fold L.fold) s b t)
    (hb : b.Same (y.fold L.fold))
    (hh : x.declarators.map Declarator.head = y.declarators.map Declarator.head) :
    L.Lists y.declarators t := by
  cases y with
  | decl kind ds => exact hd.lists kind.bindingKind hr.declarators hh (hb.outer ▸ List.Subset.refl _)
  | _ => exact ⟨nofun, nofun⟩

theorem finish_finishes (hr : L.Ready (x.fold L.fold) s) (hk : L.Knows t)
    (hd : L.Done (x.fold L.fold) s (y.fold L.fold) t)
    (hh : x.declarators.map Declarator.head = y.declarators.map Declarator.head) :
    L.Finishes (x.fold L.fold).keys (y.fold L.fold) t (finish y t) := by
  have hs := renewStmt_same hk y
  have hh := hh.trans (renewStmt_declarators t y).symm
  have hl := Done.declarators hr hd hs hh
  have hsound := removeDeclaration_sound hd.sound hl
  have hdead : ∀ τ ∈ (removeDeclaration (t.renewStmt y) t).2.dead,
      τ ∈ t.dead ∨ τ ∈ (x.fold L.fold).keys := by
    intro τ hτ
    rcases removeDeclaration_dead _ τ hτ with hτ | ⟨d, hmem, rfl⟩
    · exact .inl hτ
    · obtain ⟨e, he, hes⟩ := exists_site_eq hh hmem
      exact .inr (hes ▸ declarators_keys he)
  refine Finishes.same ?_ hs
  rcases finish_cases y t with ⟨hz, he⟩ | ⟨test, yes, no, hz, he⟩ | ⟨hz, he⟩ | ⟨hz, he⟩
  · rw [he]
    exact .nil hsound hdead (removed_cost [] hz)
  · rw [he, hz]
    exact foldIf_finishes hd.sound (hz ▸ hs.outer ▸ hd.outer)
  · rw [he, hz]
    refine .nil hd.sound (fun τ hτ => .inl hτ) (Nat.add_le_add_right ?_ _)
    exact Nat.le_trans (L.unit_le_stmtCost .empty) (stmtCost_le .empty _ _)
  · rw [he]
    exact .single ⟨hsound, hdead, List.Subset.refl _, List.Subset.refl _, fun e he => .inl he,
      kept_cost [] hz⟩

theorem foldIf_settles (test : Expr) (yes : Stmt) (no : Option Stmt) (s : State) :
    s.Settles (foldIf test yes no s).2 := by
  rcases foldIf_cases test yes no s with he | ⟨_, _, _, _, _, _, hr, _⟩
  · rw [he]
    rcases normalize_cases test yes no s with he | ⟨_, _, hr, _⟩
    · rw [he]
      exact .refl s
    · exact hr.toSettles
  · exact hr.toSettles

theorem finish_settles (y : Stmt) (s : State) : s.Settles (finish y s).2 := by
  rcases finish_cases y s with ⟨-, he⟩ | ⟨test, yes, no, -, he⟩ | ⟨-, he⟩ | ⟨-, he⟩
  · rw [he]
    exact removeDeclaration_settles _ s
  · rw [he]
    exact foldIf_settles test yes no s
  · rw [he]
    exact .refl s
  · rw [he]
    exact removeDeclaration_settles _ s

/-- A statement whose parts have been visited is finished. -/
theorem Visit.finished (hh : x.declarators.map Declarator.head = y.declarators.map Declarator.head)
    (h : L.Visit (x.fold L.fold) s (y.fold L.fold) t) :
    L.Visit (x.fold L.fold) s (Stmt.foldList L.fold (finish y t).1) (finish y t).2 ∧
      L.Visit (x.fold L.fold) s ((asOne (finish y t).1).fold L.fold) (finish y t).2 := by
  have hs := finish_settles y t
  have hf (hr : L.Ready (x.fold L.fold) s) (hb : L.Bounds (finish y t).2)
      (hd : L.Done (x.fold L.fold) s (y.fold L.fold) t) :=
    finish_finishes hr (hd.sound.knows (hb.of_grows hs.grows)) hd hh
  constructor
  · exact h.after hs fun hr hb hd => (hf hr hb hd).1
  · exact h.after hs fun hr hb hd => (hf hr hb hd).2

end Finishing

/-! ### Statements that are never reached -/

theorem mem_listNames {ds : List Declarator} {id : Ident} (h : id ∈ Declarator.listNames ds) :
    ∃ d ∈ ds, id ∈ d.names := by
  induction ds with
  | nil => cases h
  | cons d ds ih =>
    rcases List.mem_append.1 h with h | h
    · exact ⟨d, List.mem_cons_self, h⟩
    · obtain ⟨e, he, hid⟩ := ih h
      exact ⟨e, List.mem_cons_of_mem _ he, hid⟩

theorem survivingVars_unused {x : Stmt} (h : ∀ id ∈ x.varNames, s.isUsedAt id.site = false) :
    s.survivingVars x = [] := by
  have hnil : x.varNames.filter (fun id => s.isUsedAt id.site) = [] :=
    List.filter_eq_nil_iff.2 fun id hid => by rw [h id hid]; exact Bool.false_ne_true
  have hsub := survivors_sublist s [] x.varNames
  rw [hnil, List.sublist_nil] at hsub
  rw [State.survivingVars, hsub]

/-- No variable of a declaration is used, if those of its live declarators are not. -/
theorem decl_unused {kind : DeclKind} {ds : List Declarator} (hr : L.Ready ((Stmt.decl kind ds).fold L.fold) s)
    (h : (ds.any fun d => !s.isDead d.site && s.bindsUsed d.target) = false) :
    ∀ id ∈ (Stmt.decl kind ds).varNames, s.isUsedAt id.site = false := by
  intro id hid
  have hb : (Stmt.decl kind ds).varNames.map Ident.site ⊆ (Declarator.listNames ds).map Ident.site := by
    have hc := (Stmt.fold_related (covers_relates (L := L) s.isUsedAt) (.decl kind ds)).binders
    rw [← Declarator.foldList_binders L kind.bindingKind ds]
    exact hc
  obtain ⟨id', hid', he⟩ := List.mem_map.1 (hb (List.mem_map_of_mem hid))
  obtain ⟨d, hd, hmem⟩ := mem_listNames hid'
  rw [← he]
  by_cases hdead : d.site ∈ s.dead
  · have hu := hr.toSound.unused fun e he => .inl (hr.entries (Piece.outer_subset _ he))
    exact hu _ (mem_outer kind.bindingKind hd) hdead _ (List.mem_map_of_mem hmem)
  · have hd := List.any_eq_false.1 h d hd
    rw [State.isDead_eq_false_iff.2 hdead, Bool.not_false, Bool.true_and, State.bindsUsed,
      Bool.not_eq_true, List.any_eq_false] at hd
    cases d
    exact Bool.eq_false_iff.2 (hd id' hmem)

/-- A statement that is never reached pays for the change and for what outlives it. -/
theorem prune_cost {x : Stmt} (hr : L.Ready (x.fold L.fold) s)
    (hx : ∀ kind ds, x = .decl kind ds →
      (ds.any fun d => !s.isDead d.site && s.bindsUsed d.target) = false) (D : List Site) :
    (Stmt.foldList L.fold (prune x s).1).cost.val D [] + L.tariff.unit ≤
      (x.fold L.fold).cost.val s.dead s.trimmed := by
  obtain ⟨hp, hrec, -⟩ := prune_spec x s
  have hg := hrec.toSettles.grows
  rw [hp]
  have hnone (h : (prune x s).2.survivingVars x = []) :
      (Stmt.foldList L.fold ((prune x s).2.survivingVars x)).cost.val D [] + L.tariff.unit ≤
        (x.fold L.fold).cost.val s.dead s.trimmed := by
    rw [h]
    show 0 + L.tariff.unit ≤ _
    rw [Nat.zero_add]
    exact Nat.le_trans (L.unit_le_stmtCost x) (stmtCost_le x _ _)
  have hsome (h : 2 * L.tariff.unit ≤ L.tariff.stmtCost x) :
      (Stmt.foldList L.fold ((prune x s).2.survivingVars x)).cost.val D [] + L.tariff.unit ≤
        (x.fold L.fold).cost.val s.dead s.trimmed := by
    have hu := hr.toSound.unused fun e he => .inl (hr.entries (Piece.outer_subset _ he))
    have hc := survivingVars_cost (hu.of_grows hg) s.trimmed D []
    omega
  cases x with
  | empty => exact hnone rfl
  | decl kind ds =>
    exact hnone (survivingVars_unused fun id hid => hg.isUsedAt (decl_unused hr (hx kind ds rfl) id hid))
  | cond => exact hsome (Nat.mul_le_mul_right _ (by decide : 2 ≤ 5))
  | _ => exact hsome (Nat.le_refl _)

namespace Visit

theorem pruned {x : Stmt} (hx : ∀ kind ds, x = .decl kind ds →
      (ds.any fun d => !s.isDead d.site && s.bindsUsed d.target) = false) :
    L.Visit (x.fold L.fold) s (Stmt.foldList L.fold (prune x s).1) (prune x s).2 := by
  obtain ⟨hp, hrec, -⟩ := prune_spec x s
  have hi : Inert (Stmt.foldList L.fold (prune x s).1) := hp ▸ survivingVars_inert _ x
  refine discard hrec.toSettles hi.refs hi.own hi.outer fun hr _ => ⟨hr.toSound.records hrec,
    fun τ hτ => .inl (hrec.dead_eq ▸ hτ), ?_⟩
  have hc := prune_cost hr hx (prune x s).2.dead
  rw [L.spent_succ hrec.changes_eq]
  omega

theorem filtered {ts : List Stmt} (p : Stmt → Bool) (h : L.Visit a s (Stmt.foldList L.fold ts) t) :
    L.Visit a s (Stmt.foldList L.fold (ts.filter p)) t :=
  h.after (.refl t) fun _ _ hd =>
    (After.of_same hd.sound (.refl _)).within (.foldList_filter p ts) (Nat.le_refl _)

theorem vanished : L.Visit (Stmt.empty.fold L.fold) s L.fold.empty s :=
  discard (.refl s) rfl rfl nofun fun hr _ =>
    ⟨hr.toSound, fun _ hσ => .inl hσ, Nat.add_le_add_right (Nat.zero_le _) _⟩

theorem listed {x : Stmt} (h : L.Visit (x.fold L.fold) (list x s).2 b t) : L.Visit (x.fold L.fold) s b t := by
  obtain ⟨sites, he⟩ : ∃ sites, (list x s).2 = { s with listed := sites } := by
    cases x <;> exact ⟨_, rfl⟩
  rw [he] at h
  refine h.before { State.Grows.refl s with } fun hr _ => ?_
  have hsound : L.Sound { s with listed := sites } := ⟨hr.dead, hr.origins, hr.defined, hr.buried, hr.late⟩
  exact ⟨⟨hsound, hr.nodup, hr.entries, hr.elems, hr.unboxed, hr.contents⟩, fun _ hσ => .inl hσ, fun _ _ => rfl,
    fun _ _ => rfl, fun _ => Int.le_refl _, Nat.le_refl _⟩

end Visit

/-! ### Trimming -/

section Trimming

/-- The state after the declarator at a site has lost its initializer. -/
def trimming (s : State) (σ : Site) : State :=
  { s.put σ (.variable none) s.late with
    trimmed := σ :: s.trimmed
    changes := { rule := .prune } :: s.changes }

/-- A declarator that is never reached stays, is buried if it is not used, or loses its initializer. -/
theorem trimDeclarator_cases (kind : DeclKind) (d : Declarator) (s : State) :
    (trimDeclarator kind d s).2 = s ∨
      (s.isDead d.site = false ∧ s.bindsUsed d.target = false ∧ s.Settles (trimDeclarator kind d s).2 ∧
        (trimDeclarator kind d s).2.dead = d.site :: s.dead ∧
        (trimDeclarator kind d s).2.changes.length = s.changes.length + 1 ∧
        s.Releases (trimDeclarator kind d s).2 (Expr.foldOpt s.liveIdents d.init)) ∨
      ∃ site id e v, d = .mk site (.ident id) (some e) ∧ site ∉ s.dead ∧ site ∉ s.trimmed ∧
        s.Settles v ∧ v.dead = s.dead ∧ v.changes = s.changes ∧ s.Releases v (e.fold s.liveIdents) ∧
        (trimDeclarator kind d s).2 = trimming v site := by
  cases d with
  | mk site target init =>
    cases hd : s.isDead site with
    | true =>
      have he : trimDeclarator kind (.mk site target init) s = ((), s) := congrFun (if_pos hd) s
      exact .inl (congrArg Prod.snd he)
    | false =>
      cases hu : s.bindsUsed target with
      | false =>
        have he : trimDeclarator kind (.mk site target init) s =
            record .remove none (bury site (releaseOpt init s).2).2 := by
          simp only [trimDeclarator, run_bind, run_get, hd, hu, Bool.false_eq_true, Bool.not_false, if_false,
            if_true]
        rw [he]
        refine .inr (.inl ⟨hd, hu, ?_, ?_, ?_, ?_⟩)
        · exact ((releaseOpt_settles s init).trans (bury_settles _ site)).trans
            (record_settles _ (by decide) _)
        · exact congrArg (site :: ·) (releaseOpt_dead s init)
        · exact congrArg (List.length · + 1) (releaseOpt_changes s init)
        · exact releaseOpt_releases s init
      | true =>
        cases hc : target.isIdent && kind ≠ .const && init.isSome && !s.trimmed.contains site with
        | false =>
          refine .inl ?_
          simp only [trimDeclarator, run_bind, run_get, hd, hu, hc, Bool.false_eq_true, Bool.not_true, if_false,
            run_pure]
        | true =>
          have he : (trimDeclarator kind (.mk site target init) s).2 = trimming (releaseOpt init s).2 site := by
            simp only [trimDeclarator, run_bind, run_get, hd, hu, hc, Bool.false_eq_true, Bool.not_true, if_false,
              if_true]
            rfl
          simp only [Bool.and_eq_true, Bool.not_eq_true'] at hc
          obtain ⟨⟨⟨hi, -⟩, hs⟩, ht⟩ := hc
          obtain ⟨e, rfl⟩ := Option.isSome_iff_exists.1 hs
          have htrim : site ∉ s.trimmed := fun hmem => by
            rw [List.contains_iff_mem.2 hmem] at ht
            cases ht
          cases target with
          | ident id =>
            exact .inr (.inr ⟨site, id, e, _, rfl, State.isDead_eq_false_iff.1 hd, htrim,
              releaseExpr_settles s e, releaseExpr_dead s e, releaseExpr_changes s e, releaseExpr_releases s e, he⟩)
          | _ => cases hi

theorem trimming_grows (s : State) (σ : Site) : s.Grows (trimming s σ) :=
  { State.Grows.refl s with trimmed := List.subset_cons_self _ _ }

theorem trimDeclarator_grows (kind : DeclKind) (d : Declarator) (s : State) :
    s.Grows (trimDeclarator kind d s).2 := by
  rcases trimDeclarator_cases kind d s with he | ⟨-, -, hs, -⟩ | ⟨_, _, _, v, -, -, -, hs, -, -, -, he⟩
  · rw [he]
    exact .refl s
  · exact hs.grows
  · rw [he]
    exact hs.grows.trans (trimming_grows v _)

theorem Sound.trimming (h : L.Sound s) (hσ : σ ∉ s.dead) (hx : ∃ x, (σ, [x]) ∈ L.entries) :
    L.Sound (trimming s σ) := by
  have hp : L.Sound (s.put σ (.variable none) s.late) := by
    refine h.put trivial (fun _ => hx) (fun hd => absurd hd hσ) fun hl => .inl ⟨?_, hl⟩
    rintro rfl
    exact hσ (h.late hl).1
  exact ⟨hp.dead, hp.origins, hp.defined, hp.buried, hp.late⟩

theorem term_trimming (hσ : σ ∉ s.dead) (τ : Site) : L.term (trimming s σ) τ ≤ L.term s τ := by
  have he : L.term (Ledger.trimming s σ) τ = L.term (s.put σ (.variable none) s.late) τ := rfl
  rw [he]
  by_cases hτ : τ = σ
  · subst hτ
    have hd : τ ∉ (s.put τ (.variable none) s.late).dead := hσ
    rw [term, term, if_neg hd, if_neg hσ, value, State.definition?_put]
    split
    · exact Int.natCast_nonneg _
    · exact Int.le_refl _
  · rw [term_put_ne hτ]

namespace Before

theorem refl (h : L.Ready a s) : L.Before a s s :=
  .of_settles h (.refl s) h.toSound (fun _ hσ => .inl hσ) (Nat.le_refl _)

theorem trans (h : L.Before a s t) (h' : L.Before a t u) : L.Before a s u where
  ready := h'.ready
  dead σ hσ := (h'.dead σ hσ).elim (h.dead σ) .inr
  definitions σ hσ := (h'.definitions σ hσ).trans (h.definitions σ hσ)
  forms σ hσ := (h'.forms σ hσ).trans (h.forms σ hσ)
  term σ := Int.le_trans (h'.term σ) (h.term σ)
  cost := Nat.le_trans h'.cost h.cost

end Before

variable {kind : DeclKind} {ds : List Declarator} {d : Declarator}

/-- A declarator of a name that loses its initializer pays for the change. -/
theorem trimming_before {id : Ident} {e : Expr} (hr : L.Ready ((Stmt.decl kind ds).fold L.fold) s)
    (hmem : .mk σ (.ident id) (some e) ∈ ds) (hdead : σ ∉ s.dead) (htrim : σ ∉ s.trimmed) :
    L.Before ((Stmt.decl kind ds).fold L.fold) s (trimming s σ) := by
  have hc : (σ, some (.variable (some e))) ∈ ((Stmt.decl kind ds).fold L.fold).contents :=
    mem_contents kind.bindingKind hmem
  have hx : ∃ x, (σ, [x]) ∈ L.entries := ⟨id.site, hr.declarators.entries _ hmem⟩
  have hform : s.form? σ = some false := by
    rcases hr.contents _ hc with hdef | ⟨-, hform, -⟩
    · rw [State.form?, hdef]
      rfl
    · exact hform
  have hforms (τ : Site) : (trimming s σ).form? τ = s.form? τ := State.form?_put s.late hform τ
  have hdef {τ : Site} (hτ : τ ≠ σ) : (trimming s σ).definition? τ = s.definition? τ := by
    show (s.put σ (.variable none) s.late).definition? τ = _
    rw [State.definition?_put, if_neg fun heq => hτ heq.1.symm]
  refine ⟨{ hr.toSound.trimming hdead hx with
    nodup := hr.nodup
    entries := hr.entries
    elems := hr.elems
    unboxed := hr.unboxed
    contents := fun c hc' => ?_ }, fun τ hτ => .inl hτ, fun τ hτ => hdef ?_, fun τ _ => hforms τ,
    term_trimming hdead, ?_⟩
  · rw [hforms]
    by_cases hcσ : c.1 = σ
    · have hnd : (((Stmt.decl kind ds).fold L.fold).contents.map Prod.fst).Nodup :=
        (Piece.keyed _) ▸ (List.nodup_append.1 hr.nodup).1
      obtain rfl := List.inj_on_of_nodup_map hnd hc' hc hcσ
      exact .inr ⟨⟨_, rfl⟩, hform, .inr List.mem_cons_self⟩
    · rw [hdef hcσ]
      exact (hr.contents c hc').imp (fun h => h) fun h =>
        ⟨h.1, h.2.1, h.2.2.imp (fun h => h) (List.mem_cons_of_mem _)⟩
  · rintro rfl
    exact hτ (Piece.mem_keys hc)
  · have hnew : ((Declarator.mk σ (.ident id) (some e)).fold L.fold kind.bindingKind).cost.val s.dead
        (σ :: s.trimmed) = L.tariff.nameCost (.ident id) := Cost.declarator_trimmed hdead List.mem_cons_self
    have hsave := foldList_saves (L := L) (n := L.tariff.unit) kind.bindingKind (List.Subset.refl s.dead)
      (List.subset_cons_self σ s.trimmed) hmem (by
        rw [hnew, Visit.name_cost kind.bindingKind id (some e) hdead htrim]
        show _ ≤ _ + 1 * L.tariff.unit
        omega)
    rw [L.spent_succ (s := s) rfl]
    show (Declarator.foldList L.fold kind.bindingKind ds).cost.val s.dead (σ :: s.trimmed) + 1 * L.tariff.unit + _ ≤
      (Declarator.foldList L.fold kind.bindingKind ds).cost.val s.dead s.trimmed + 1 * L.tariff.unit + _
    omega

theorem trimDeclarator_before (hr : L.Ready ((Stmt.decl kind ds).fold L.fold) s) (hmem : d ∈ ds) :
    L.Before ((Stmt.decl kind ds).fold L.fold) s (trimDeclarator kind d s).2 := by
  have hl := hr.declarators
  rcases trimDeclarator_cases kind d s with he | ⟨hd, hu, hs, hdead, hch, -⟩ |
    ⟨site, id, e, v, rfl, hd, ht, hs, hvd, hvc, -, he⟩
  · rw [he]
    exact .refl hr
  · refine .of_settles hr hs ?_ (fun τ hτ => ?_) ?_
    · refine hr.toSound.bury hs hdead (hl.entries d hmem) (fun x hx => ?_) (hl.unnamed d hmem)
      obtain ⟨id, hid, rfl⟩ := List.mem_map.1 hx
      cases d
      exact Bool.eq_false_iff.2 (List.any_eq_false.1 hu id hid)
    · rw [hdead] at hτ
      rcases List.mem_cons.1 hτ with rfl | hτ
      · exact .inr (declarators_keys (x := .decl kind ds) hmem)
      · exact .inl hτ
    · have hsave := foldList_saves (L := L) (n := L.tariff.unit) kind.bindingKind
        (List.subset_cons_self d.site s.dead) (List.Subset.refl s.trimmed) hmem
        (declarator_buried kind.bindingKind d (State.isDead_eq_false_iff.1 hd))
      rw [hdead, L.spent_succ hch]
      show (Declarator.foldList L.fold kind.bindingKind ds).cost.val _ _ + 1 * L.tariff.unit + _ ≤
        (Declarator.foldList L.fold kind.bindingKind ds).cost.val _ _ + 1 * L.tariff.unit + _
      omega
  · rw [he]
    have hv : L.Before ((Stmt.decl kind ds).fold L.fold) s v :=
      .of_settles hr hs (hr.toSound.settles hs fun τ hτ => .inl (hvd ▸ hτ)) (fun τ hτ => .inl (hvd ▸ hτ))
        (by rw [hvd, L.spent_congr hvc])
    exact hv.trans (trimming_before hv.ready hmem (hvd ▸ hd) (hs.trimmed ▸ ht))

theorem forM_trimDeclarator (es : List Declarator) (hes : es ⊆ ds)
    (hr : L.Ready ((Stmt.decl kind ds).fold L.fold) s) :
    L.Before ((Stmt.decl kind ds).fold L.fold) s (es.forM (trimDeclarator kind) s).2 := by
  induction es generalizing s with
  | nil => exact .refl hr
  | cons d es ih =>
    have hd := trimDeclarator_before (d := d) hr (hes List.mem_cons_self)
    exact hd.trans (ih (fun e he => hes (List.mem_cons_of_mem _ he)) hd.ready)

theorem forM_trimDeclarator_grows (kind : DeclKind) (es : List Declarator) (s : State) :
    s.Grows (es.forM (trimDeclarator kind) s).2 := by
  induction es generalizing s with
  | nil => exact .refl s
  | cons d es ih => exact (trimDeclarator_grows kind d s).trans (ih _)

theorem Visit.trimming (h : L.Visit ((Stmt.decl kind ds).fold L.fold) (ds.forM (trimDeclarator kind) s).2 b t) :
    L.Visit ((Stmt.decl kind ds).fold L.fold) s b t :=
  h.before (forM_trimDeclarator_grows kind ds s) fun hr _ =>
    forM_trimDeclarator ds (List.Subset.refl _) hr

end Trimming

/-! ### Every rule -/

theorem Visit.funcDecl {f f' : Func} (hf : f.head = f'.head)
    (h : L.Visit (f.fold L.fold .func) s (f'.fold L.fold .func) t) :
    L.Visit ((Stmt.func f).fold L.fold) s ((Stmt.func f').fold L.fold) (defineFunc f' t).2 := by
  refine Visit.stmt (congrArg Stmt.func hf) ?_
  show L.Visit (L.named f.name (.func f) _) s (L.named f'.name (.func f') _) _
  rw [Func.name_of_head hf]
  exact named rfl rfl rfl rfl (fun id hid hat => ⟨congrArg (Option.map Ident.site) hid, hat.2⟩)
    (h.charged (L.tariff.func_of_head hf).symm)

theorem Visit.clsDecl {c c' : Class} (hc : c.head = c'.head)
    (h : L.Visit (c.fold L.fold .cls) s (c'.fold L.fold .cls) t) :
    L.Visit ((Stmt.cls c).fold L.fold) s ((Stmt.cls c').fold L.fold) (defineClass c' t).2 := by
  refine Visit.stmt (congrArg Stmt.cls hc) ?_
  show L.Visit (L.named c.name (.cls c) _) s (L.named c'.name (.cls c') _) _
  rw [Class.name_of_head hc]
  exact named rfl rfl rfl rfl (fun id hid hat => ⟨congrArg (Option.map Ident.site) hid, hat.2⟩)
    (h.charged (L.tariff.cls_of_head hc).symm)

/-- Every rule keeps to the ledger. -/
theorem visits (L : Ledger) : Visits L.fold (fun _ => L.Visit) L.Visit L.Visit where
  lawful := L.fold_lawful
  empty := Visit.idle fun _ _ => rfl
  ident _ _ _ := Visit.idle fun _ _ => rfl
  hole := Visit.idle fun _ _ => rfl
  append := Visit.append
  part h := h
  expr := Visit.expr
  stmt := Visit.stmt
  property _ h := h
  inlineExpr := Visit.inlineExpr
  inlineProperty := Visit.inlineProperty
  conditional role _ _ _ _ _ _ _ _ h := h.conditional role
  deadDeclarator kind _ _ h := Visit.deadDeclarator kind h
  deadStmt := Visit.deadStmt
  declarator kind _ _ _ _ _ _ _ _ := Visit.declarator kind
  trimmed kind _ _ _ _ _ _ hs _ := Visit.trimmed kind hs
  deadElement kind _ _ h := Visit.deadElement kind h
  element kind _ _ _ _ _ _ _ _ hh _ hi := Visit.element kind hh (Nat.le_of_eq (congrArg Bool.toNat hi.symm))
  trimmedElement kind _ _ _ init _ t hh _ h := h.element kind hh (Nat.zero_le _) (.withoutInit init t)
  funcDecl := Visit.funcDecl
  clsDecl := Visit.clsDecl
  loopHead kind _ _ _ _ := Visit.loopHead kind
  entered := Visit.entered
  removed := Visit.removed
  finished _ := Visit.finished
  unfinished h := h
  slot h := h
  kept _ h := h
  listed := Visit.listed
  pruned h := Visit.pruned h.decl
  trimming _ _ _ _ _ _ := Visit.trimming
  vanished := Visit.vanished
  filtered := Visit.filtered _

end Ledger

end Deadwood
