import Deadwood.Elimination.Run
import Deadwood.Proofs.Numbering
import Deadwood.Proofs.Removal
import Deadwood.Proofs.Rules
import Mathlib.Data.Finset.Basic

/-!
# What syntax costs

The cost of a program bounds the number of changes that passes can make to it, or counts parts that passes
do not add to; a tariff says which.  One pass is accounted for with the help of a ledger, which knows what
will be dead when the pass is over.  What such a declaration holds is not charged where it stands but to the
state of the pass, from where it goes to the place that the value is moved to.
-/

namespace Deadwood

open Elimination

/-! ### Bulk -/

/-- The cost of a statement apart from its parts.  A test pays for the blocks that its branches may need
in its place. -/
def Stmt.bulk : Stmt → Nat
  | .cond .. => 5
  | .empty | .decl .. => 1
  | _ => 2

def Expr.bulk : Expr → Nat
  | .cond .. => 1
  | _ => 0

def Pattern.isName : Pattern → Bool
  | .ident _ => true
  | _ => false

def Declarator.bulk : Declarator → Nat
  | .mk _ target init => (!target.isName).toNat + init.isSome.toNat

/-- Collects what a program costs. -/
def Fold.bulk : Fold Nat where
  empty := 0
  append := (· + ·)
  ident _ _ := 1
  expr e n := n + e.bulk
  stmt t n := n + t.bulk
  declarator d n := n + d.bulk

/-- What a program costs. -/
def Program.bulk (p : Program) : Nat := p.fold Fold.bulk

/-! ### Tariffs -/

/-- What is charged for the parts of a program.  The bulk and the changes are charged `unit` times, and on top
of that identifiers and expressions have charges of their own. -/
structure Tariff where
  unit : Nat
  ident : Role → Ident → Nat
  expr : Expr → Nat
  /-- A name costs the same wherever it is declared. -/
  binding : ∀ kind kind' id, ident (.binding kind) id = ident (.binding kind') id
  /-- A variable that outlives its declaration costs no more than there. -/
  unsited : ∀ kind id, ident (.binding kind) { id with site := 0 } ≤ ident (.binding kind) id
  expr_of_head : ∀ {e e'}, e.head = e'.head → expr e = expr e'
  number : ∀ value raw, expr (.number value raw) = 0
  unary : ∀ op e, expr (.unary op e) = 0
  seq : ∀ es, expr (.seq es) = 0

namespace Tariff

variable (T : Tariff)

def identCost (role : Role) (id : Ident) : Nat := T.unit + T.ident role id

def exprCost (e : Expr) : Nat := e.bulk * T.unit + T.expr e

def stmtCost (t : Stmt) : Nat := t.bulk * T.unit

def declaratorCost (d : Declarator) : Nat := d.bulk * T.unit

theorem identCost_binding (kind kind' : BindingKind) (id : Ident) :
    T.identCost (.binding kind) id = T.identCost (.binding kind') id := by
  rw [identCost, identCost, T.binding kind kind']

/-- What a target costs that is a name. -/
def nameCost : Pattern → Nat
  | .ident id => T.identCost (.binding .var) id
  | _ => 0

/-- Collects what a program costs. -/
def fold : Fold Nat where
  empty := 0
  append := (· + ·)
  ident := T.identCost
  expr e n := n + T.exprCost e
  stmt t n := n + T.stmtCost t
  declarator d n := n + T.declaratorCost d
  funcDecl f n := n + T.expr (.func f)
  clsDecl c n := n + T.expr (.cls c)

end Tariff

/-! ### Costs -/

/-- What a piece of syntax costs, given the declarations that are dead and those that are trimmed.  The
more there are, the less it costs. -/
@[ext]
structure Cost where
  val : List Site → List Site → Nat
  antitone : ∀ {d d' r r'}, d ⊆ d' → r ⊆ r' → val d' r' ≤ val d r

namespace Cost

def const (n : Nat) : Cost where
  val _ _ := n
  antitone _ _ := Nat.le_refl n

def add (c c' : Cost) : Cost where
  val d r := c.val d r + c'.val d r
  antitone hd hr := Nat.add_le_add (c.antitone hd hr) (c'.antitone hd hr)

/-- The cost of a declarator whose parts cost `c`, of which a name costs `n`.  If it is `cut`, its value is
charged elsewhere. -/
def declarator (cut : Bool) (site : Site) (isName hasInit : Bool) (u n : Nat) (c : Cost) : Cost where
  val d r :=
    if site ∈ d then 0
    else if isName then
      if site ∈ r then n else (if cut then n else max n (c.val d r)) + hasInit.toNat * u
    else c.val d r + u + hasInit.toNat * u
  antitone {d d' r r'} hd hr := by
    have hc := c.antitone hd hr
    have hd : site ∈ d → site ∈ d' := @hd site
    have hr : site ∈ r → site ∈ r' := @hr site
    split
    · exact Nat.zero_le _
    · rw [if_neg (fun h => ‹site ∉ d'› (hd h))]
      cases isName with
      | false => simpa using hc
      | true =>
        simp only [if_true]
        split
        · split
          · exact Nat.le_refl n
          · split <;> omega
        · rw [if_neg (fun h => ‹site ∉ r'› (hr h))]
          cases cut
          · simp only [Bool.false_eq_true, if_false]
            omega
          · exact Nat.le_refl _

@[simp] theorem const_val (n : Nat) (d r : List Site) : (const n).val d r = n := rfl

@[simp] theorem add_val (c c' : Cost) (d r : List Site) :
    (c.add c').val d r = c.val d r + c'.val d r := rfl

section Declarator

variable {cut hasInit : Bool} {site : Site} {u n : Nat} {c : Cost} {d r : List Site}

theorem declarator_pattern (h : site ∉ d) :
    (declarator cut site false hasInit u n c).val d r = c.val d r + u + hasInit.toNat * u := by
  simp [declarator, h]

theorem declarator_pattern_le :
    (declarator cut site false hasInit u n c).val d r ≤ c.val d r + u + hasInit.toNat * u := by
  by_cases h : site ∈ d
  · simp [declarator, h]
  · exact Nat.le_of_eq (declarator_pattern h)

theorem declarator_name (h : site ∉ d) (hr : site ∉ r) :
    (declarator cut site true hasInit u n c).val d r =
      (if cut then n else max n (c.val d r)) + hasInit.toNat * u := by
  simp [declarator, h, hr]

theorem declarator_trimmed (h : site ∉ d) (hr : site ∈ r) :
    (declarator cut site true hasInit u n c).val d r = n := by
  simp [declarator, h, hr]

theorem declarator_name_le :
    (declarator cut site true hasInit u n c).val d r ≤ max n (c.val d r) + hasInit.toNat * u := by
  simp only [declarator, if_true]
  split
  · exact Nat.zero_le _
  · split
    · omega
    · split <;> omega

theorem le_declarator_name (h : site ∉ d) : n ≤ (declarator cut site true hasInit u n c).val d r := by
  simp only [declarator, if_neg h, if_true]
  split
  · exact Nat.le_refl n
  · split <;> omega

theorem unit_le_declarator {isName : Bool} (hn : isName = true → u ≤ n) (h : site ∉ d) :
    u ≤ (declarator cut site isName hasInit u n c).val d r := by
  cases isName with
  | true => exact Nat.le_trans (hn rfl) (le_declarator_name h)
  | false =>
    rw [declarator_pattern h]
    omega

end Declarator

end Cost

/-! ### Pieces -/

theorem Sites.ident_decls (role : Role) (id : Ident) : (Fold.sites.ident role id).decls = [] := by
  cases role with
  | binding kind => cases kind <;> rfl
  | _ => rfl

/-- What a pass has to know of a piece of syntax. -/
structure Piece extends Sites where
  cost : Cost
  /-- The declarations with what they give to their names.  A pattern gives nothing by itself. -/
  contents : List (Site × Option Definition)
  /-- The sites that are read or assigned to. -/
  refs : List Site
  /-- The declarators outside of expressions and nested functions, with their names. -/
  outer : List (Site × List Site)
  keyed : contents.map Prod.fst = decls.map Prod.fst
  outer_subset : outer ⊆ decls

namespace Piece

def empty : Piece := ⟨.empty, .const 0, [], [], [], rfl, List.nil_subset _⟩

def append (a b : Piece) : Piece where
  toSites := a.toSites.append b.toSites
  cost := a.cost.add b.cost
  contents := a.contents ++ b.contents
  refs := a.refs ++ b.refs
  outer := a.outer ++ b.outer
  keyed := by
    rw [Sites.append, List.map_append, List.map_append, a.keyed, b.keyed]
  outer_subset e he :=
    List.mem_append.2 ((List.mem_append.1 he).imp (@a.outer_subset e) (@b.outer_subset e))

/-- A piece that costs more. -/
def charged (a : Piece) (n : Nat) : Piece := { a with cost := a.cost.add (.const n) }

/-- The declarations and elements of a piece. -/
def keys (a : Piece) : List Site := a.decls.map Prod.fst ++ a.elems

theorem append_keys (a b : Piece) : (a.append b).keys.Perm (a.keys ++ b.keys) := by
  simp only [keys, append, Sites.append, List.perm_iff_count, List.map_append, List.count_append]
  intro x
  omega

theorem mem_keys {a : Piece} {c : Site × Option Definition} (hc : c ∈ a.contents) : c.1 ∈ a.keys := by
  rw [keys, ← a.keyed]
  exact List.mem_append_left _ (List.mem_map_of_mem hc)

end Piece

/-- The name that a function or class expression has inside of itself. -/
def Expr.ownSite? : Expr → Option Site
  | .func f => f.name.map Ident.site
  | .cls c => c.name.map Ident.site
  | _ => none

/-- What is known beforehand of a pass. -/
structure Ledger where
  tariff : Tariff
  /-- The declarations with the names they declare. -/
  entries : List (Site × List Site)
  nodup : (entries.map Prod.fst).Nodup
  pos : ∀ e ∈ entries, 0 < e.1
  /-- The elements of patterns and the parameters, which are never dead. -/
  elems : List Site
  apart : ∀ e ∈ entries, e.1 ∉ elems
  /-- The declarations that are dead in the end. -/
  dead : Finset Site
  alive : ∀ σ ∈ elems, σ ∉ dead
  /-- Whether a class is declared at a site. -/
  isClass : Site → Bool
  /-- The functions and classes that are visited after they have moved. -/
  late : List Site
  /-- What each of those costs in the end. -/
  price : Site → Nat

namespace Ledger

/-- A function or class that stands for a declaration that is visited later. -/
def box (L : Ledger) (site : Site) : Piece where
  decls := []
  binders := []
  own := [site]
  elems := []
  cost := .const (L.price site)
  contents := []
  refs := []
  outer := []
  keyed := rfl
  outer_subset := List.nil_subset _

def boxed? (L : Ledger) (e : Expr) (a : Piece) : Option Site :=
  e.ownSite?.filter fun site => site ∈ L.late ∧ site ∈ a.own ∧ L.isClass site = e.isClassLike

/-- What comes out of an expression that is no box. -/
def inside (L : Ledger) (e : Expr) (a : Piece) : Piece :=
  { a with
    cost := a.cost.add (.const (L.tariff.exprCost e))
    binders := []
    outer := []
    outer_subset := List.nil_subset _ }

/-- The declaration of a function or class of the given name. -/
def named (L : Ledger) (name : Option Ident) (d : Definition) (a : Piece) : Piece :=
  match name with
  | none => { a with binders := [], outer := [], outer_subset := List.nil_subset _ }
  | some id => { a with
    decls := (id.site, [id.site]) :: a.decls
    binders := []
    outer := []
    contents := (id.site, some d) :: a.contents
    cost := if id.site ∈ L.dead then .const 0 else a.cost
    keyed := congrArg (id.site :: ·) a.keyed
    outer_subset := List.nil_subset _ }

/-- Collects what a pass has to know. -/
def fold (L : Ledger) : Fold Piece where
  empty := .empty
  append := .append
  ident role id :=
    { toSites := Fold.sites.ident role id
      cost := .const (L.tariff.identCost role id)
      contents := []
      refs := if role = .reference then [id.site] else []
      outer := []
      keyed := by rw [Sites.ident_decls]; rfl
      outer_subset := List.nil_subset _ }
  expr e a := ((L.boxed? e a).map L.box).getD (L.inside e a)
  stmt t a := a.charged (L.tariff.stmtCost t)
  declarator d a := { a with
    decls := (d.site, a.binders) :: a.decls
    cost := .declarator (d.site ∈ L.dead) d.site d.target.isName d.init.isSome L.tariff.unit
      (L.tariff.nameCost d.target) a.cost
    contents := (d.site, if d.target.isName then some (.variable d.init) else none) :: a.contents
    outer := (d.site, a.binders) :: a.outer
    keyed := congrArg (d.site :: ·) a.keyed
    outer_subset := List.cons_subset_cons _ a.outer_subset }
  element d a := { a with
    elems := d.site :: a.elems
    cost := a.cost.add (.const (L.tariff.declaratorCost d)) }
  funcDecl f a := L.named f.name (.func f) (a.charged (L.tariff.expr (.func f)))
  clsDecl c a := L.named c.name (.cls c) (a.charged (L.tariff.expr (.cls c)))

theorem fold_lawful (L : Ledger) : L.fold.Lawful where
  assoc a b c := by
    simp only [fold, Piece.append, Sites.append, List.append_assoc, Cost.add, Nat.add_assoc]
  empty_left a := by
    simp only [fold, Piece.append, Piece.empty, Sites.append, Sites.empty, List.nil_append, Cost.add,
      Cost.const, Nat.zero_add]
  empty_right a := by
    simp only [fold, Piece.append, Piece.empty, Sites.append, Sites.empty, List.append_nil, Cost.add,
      Cost.const, Nat.add_zero]

end Ledger

/-! ### What depends on the head only -/

theorem Expr.ownSite?_of_head {e e' : Expr} (h : e.head = e'.head) : e.ownSite? = e'.ownSite? := by
  have hh (e : Expr) : e.head.ownSite? = e.ownSite? := by
    cases e with
    | func f => cases f; rfl
    | cls c => cases c; rfl
    | _ => rfl
  rw [← hh e, h, hh]

theorem Expr.isClassLike_of_head {e e' : Expr} (h : e.head = e'.head) : e.isClassLike = e'.isClassLike := by
  have hh (e : Expr) : e.head.isClassLike = e.isClassLike := by cases e <;> rfl
  rw [← hh e, h, hh]

theorem Tariff.exprCost_of_head (T : Tariff) {e e' : Expr} (h : e.head = e'.head) :
    T.exprCost e = T.exprCost e' := by
  have hh (e : Expr) : e.head.bulk = e.bulk := by cases e <;> rfl
  rw [exprCost, exprCost, ← hh e, h, hh, T.expr_of_head h]

theorem Tariff.func_of_head (T : Tariff) {f f' : Func} (h : f.head = f'.head) :
    T.expr (.func f) = T.expr (.func f') := T.expr_of_head (congrArg Expr.func h)

theorem Tariff.cls_of_head (T : Tariff) {c c' : Class} (h : c.head = c'.head) :
    T.expr (.cls c) = T.expr (.cls c') := T.expr_of_head (congrArg Expr.cls h)

theorem Tariff.stmtCost_of_head (T : Tariff) {t t' : Stmt} (h : t.head = t'.head) :
    T.stmtCost t = T.stmtCost t' := by
  have hh (t : Stmt) : t.head.bulk = t.bulk := by cases t <;> rfl
  rw [stmtCost, stmtCost, ← hh t, h, hh]

theorem Pattern.isName_of_head {p p' : Pattern} (h : p.head = p'.head) : p.isName = p'.isName := by
  have hh (p : Pattern) : p.head.isName = p.isName := by cases p <;> rfl
  rw [← hh p, h, hh]

theorem Tariff.nameCost_of_head (T : Tariff) {p p' : Pattern} (h : p.head = p'.head) :
    T.nameCost p = T.nameCost p' := by
  have hh (p : Pattern) : T.nameCost p.head = T.nameCost p := by cases p <;> rfl
  rw [← hh p, h, hh]

theorem Func.name_of_head {f f' : Func} (h : f.head = f'.head) : f.name = f'.name := by
  have hh (f : Func) : f.head.name = f.name := by cases f; rfl
  rw [← hh f, h, hh]

theorem Class.name_of_head {c c' : Class} (h : c.head = c'.head) : c.name = c'.name := by
  have hh (c : Class) : c.head.name = c.name := by cases c; rfl
  rw [← hh c, h, hh]

theorem Tariff.declaratorCost_of_head (T : Tariff) {site : Site} {target target' : Pattern}
    {init init' : Option Expr} (ht : target.head = target'.head) (hi : init.isSome = init'.isSome) :
    T.declaratorCost (.mk site target init) = T.declaratorCost (.mk site target' init') := by
  rw [declaratorCost, declaratorCost, Declarator.bulk, Declarator.bulk, Pattern.isName_of_head ht, hi]

/-! ### Definitions -/

/-- What a definition costs and refers to. -/
def Elimination.Definition.piece (L : Ledger) : Definition → Piece
  | .variable init => Expr.foldOpt L.fold init
  | .func f => (f.fold L.fold .func).charged (L.tariff.expr (.func f))
  | .cls c => (c.fold L.fold .cls).charged (L.tariff.expr (.cls c))

/-- Whether the definition is that of a function or class. -/
def Elimination.Definition.isNamed : Definition → Bool
  | .variable _ => false
  | .func _ | .cls _ => true

/-- The name of a function or class is that of its declaration. -/
def Elimination.Definition.isAt (L : Ledger) (site : Site) : Definition → Prop
  | .variable _ => True
  | .func f => f.name.map Ident.site = some site ∧ L.isClass site = false
  | .cls c => c.name.map Ident.site = some site ∧ L.isClass site = true

namespace Ledger

variable (L : Ledger)

theorem func_box {f : Func} {site : Site} (hf : f.name.map Ident.site = some site)
    (hk : L.isClass site = false) (hs : site ∈ L.late) : (Expr.func f).fold L.fold = L.box site := by
  obtain ⟨id, hid, rfl⟩ := Option.map_eq_some_iff.1 hf
  cases f with
  | mk name params rest body async generator =>
    cases hid
    have hb : L.boxed? (.func (.mk (some id) params rest body async generator))
        (Func.fold L.fold .own (.mk (some id) params rest body async generator)) = some id.site := by
      refine Option.filter_eq_some_iff.2 ⟨rfl, decide_eq_true ⟨hs, ?_, hk⟩⟩
      exact List.mem_append_left _ (List.mem_singleton_self _)
    simp only [Expr.fold]
    show ((L.boxed? _ _).map L.box).getD _ = _
    rw [hb]
    rfl

theorem cls_box {c : Class} {site : Site} (hc : c.name.map Ident.site = some site)
    (hk : L.isClass site = true) (hs : site ∈ L.late) : (Expr.cls c).fold L.fold = L.box site := by
  obtain ⟨id, hid, rfl⟩ := Option.map_eq_some_iff.1 hc
  cases c with
  | mk name superclass body decorators =>
    cases hid
    have hb : L.boxed? (.cls (.mk (some id) superclass body decorators))
        (Class.fold L.fold .own (.mk (some id) superclass body decorators)) = some id.site := by
      refine Option.filter_eq_some_iff.2 ⟨rfl, decide_eq_true ⟨hs, ?_, hk⟩⟩
      exact List.mem_append_right _ (List.mem_append_left _ (List.mem_singleton_self _))
    simp only [Expr.fold]
    show ((L.boxed? _ _).map L.box).getD _ = _
    rw [hb]
    rfl

end Ledger

/-! ### Names of patterns -/

section Binders

variable (L : Ledger)

theorem Expr.fold_binders (e : Expr) : (e.fold L.fold).binders = [] := by
  have hh (a : Piece) : (L.fold.expr e a).binders = [] := by
    show (((L.boxed? e a).map L.box).getD (L.inside e a)).binders = []
    cases L.boxed? e a <;> rfl
  cases e <;> exact hh _

theorem Expr.fold_outer (e : Expr) : (e.fold L.fold).outer = [] := by
  have hh (a : Piece) : (L.fold.expr e a).outer = [] := by
    show (((L.boxed? e a).map L.box).getD (L.inside e a)).outer = []
    cases L.boxed? e a <;> rfl
  cases e <;> exact hh _

theorem Expr.foldOpt_binders (e : Option Expr) : (Expr.foldOpt L.fold e).binders = [] := by
  cases e with
  | none => rfl
  | some e => exact e.fold_binders L

theorem Piece.append_binders (a b : Piece) : (a.append b).binders = a.binders ++ b.binders := rfl

mutual

theorem Pattern.fold_binders (kind : BindingKind) (p : Pattern) :
    (p.fold L.fold kind).binders = p.names.map Ident.site := by
  match p with
  | .hole => rfl
  | .ident id => cases kind <;> rfl
  | .array elems rest =>
    rw [Pattern.names, List.map_append]
    exact congrArg₂ (· ++ ·) (Declarator.foldElems_binders kind elems) (Pattern.foldOpt_binders kind rest)
  | .object props rest =>
    rw [Pattern.names, List.map_append]
    exact congrArg₂ (· ++ ·) (PatternProp.foldList_binders kind props) (Pattern.foldOpt_binders kind rest)

theorem Pattern.foldOpt_binders (kind : BindingKind) (p : Option Pattern) :
    (Pattern.foldOpt L.fold kind p).binders = (Pattern.optNames p).map Ident.site := by
  match p with
  | none => rfl
  | some p => exact Pattern.fold_binders kind p

theorem Declarator.foldElem_binders (kind : BindingKind) (d : Declarator) :
    (d.foldElem L.fold kind).binders = d.names.map Ident.site := by
  match d with
  | .mk site target init =>
    show (Piece.append (target.fold L.fold kind) (Expr.foldOpt L.fold init)).binders = _
    rw [Piece.append_binders, Expr.foldOpt_binders, List.append_nil]
    exact Pattern.fold_binders kind target

theorem Declarator.foldElems_binders (kind : BindingKind) (ds : List Declarator) :
    (Declarator.foldElems L.fold kind ds).binders = (Declarator.listNames ds).map Ident.site := by
  match ds with
  | [] => rfl
  | d :: ds =>
    rw [Declarator.listNames, List.map_append]
    exact congrArg₂ (· ++ ·) (Declarator.foldElem_binders kind d) (Declarator.foldElems_binders kind ds)

theorem PatternProp.fold_binders (kind : BindingKind) (p : PatternProp) :
    (p.fold L.fold kind).binders = p.names.map Ident.site := by
  match p with
  | .mk key computed _ value =>
    have hv := Declarator.foldElem_binders kind value
    cases computed with
    | false => exact hv
    | true => exact (congrArg (· ++ _) (key.fold_binders L)).trans hv

theorem PatternProp.foldList_binders (kind : BindingKind) (ps : List PatternProp) :
    (PatternProp.foldList L.fold kind ps).binders = (PatternProp.listNames ps).map Ident.site := by
  match ps with
  | [] => rfl
  | p :: ps =>
    rw [PatternProp.listNames, List.map_append]
    exact congrArg₂ (· ++ ·) (PatternProp.fold_binders kind p) (PatternProp.foldList_binders kind ps)

end

theorem Declarator.fold_binders (kind : BindingKind) (d : Declarator) :
    (d.fold L.fold kind).binders = d.names.map Ident.site := by
  rw [← d.foldElem_binders L kind]
  cases d
  rfl

theorem Declarator.foldList_binders (kind : BindingKind) (ds : List Declarator) :
    (Declarator.foldList L.fold kind ds).binders = (Declarator.listNames ds).map Ident.site := by
  induction ds with
  | nil => rfl
  | cons d ds ih =>
    rw [Declarator.listNames, List.map_append]
    exact congrArg₂ (· ++ ·) (d.fold_binders L kind) ih

end Binders

/-! ### Renewal -/

/-- Two pieces differ at most in their declarations. -/
structure Piece.Same (a b : Piece) : Prop where
  cost : a.cost = b.cost
  refs : a.refs = b.refs
  own : a.own = b.own
  binders : a.binders = b.binders
  outer : a.outer = b.outer

theorem Piece.Same.refl (a : Piece) : a.Same a := ⟨rfl, rfl, rfl, rfl, rfl⟩

theorem Piece.Same.charged {a b : Piece} (h : a.Same b) (n : Nat) : (a.charged n).Same (b.charged n) :=
  { h with cost := congrArg (Cost.add · (.const n)) h.cost }

/-- What has been visited late stands in the ledger, under the name it has. -/
def Ledger.Knows (L : Ledger) (s : State) : Prop :=
  ∀ site d, s.late.lookup site = some d → site ∈ L.late ∧ d.isAt L site

namespace Ledger

variable {L : Ledger} {s : State}

theorem box_otherFunc (h : L.Knows s) {f g : Func} (hg : s.renewal.otherFunc f = some g) :
    (Expr.func f).fold L.fold = (Expr.func g).fold L.fold := by
  obtain ⟨id, hid, hg⟩ := Option.bind_eq_some_iff.1 hg
  obtain ⟨d, hd, hg⟩ := Option.bind_eq_some_iff.1 hg
  cases d with
  | func g' =>
    cases hg
    obtain ⟨hl, hn⟩ := h _ _ hd
    rw [L.func_box (congrArg (Option.map Ident.site) hid) hn.2 hl, L.func_box hn.1 hn.2 hl]
  | _ => cases hg

theorem box_otherClass (h : L.Knows s) {c d : Class} (hd : s.renewal.otherClass c = some d) :
    (Expr.cls c).fold L.fold = (Expr.cls d).fold L.fold := by
  obtain ⟨id, hid, hd⟩ := Option.bind_eq_some_iff.1 hd
  obtain ⟨e, he, hd⟩ := Option.bind_eq_some_iff.1 hd
  cases e with
  | cls d' =>
    cases hd
    obtain ⟨hl, hn⟩ := h _ _ he
    rw [L.cls_box (congrArg (Option.map Ident.site) hid) hn.2 hl, L.cls_box hn.1 hn.2 hl]
  | _ => cases hd

theorem named_same {a b : Piece} (name : Option Ident) (d d' : Definition) (h : a.Same b) :
    (L.named name d a).Same (L.named name d' b) := by
  cases name with
  | none => exact { h with binders := rfl, outer := rfl }
  | some id =>
    refine { h with binders := rfl, outer := rfl, cost := ?_ }
    exact congrArg (fun c => if id.site ∈ L.dead then Cost.const 0 else c) h.cost

/-- Functions and classes that have been visited late cost what the ledger says, as they did before. -/
theorem renewal_removes (h : L.Knows s) : Removes s.renewal L.fold L.fold Piece.Same where
  empty_left := L.fold_lawful.empty_left
  empty := .refl _
  append ha hb := by
    refine ⟨?_, ?_, ?_, ?_, ?_⟩
    · exact congrArg₂ Cost.add ha.cost hb.cost
    · exact congrArg₂ (· ++ ·) ha.refs hb.refs
    · exact congrArg₂ (· ++ ·) ha.own hb.own
    · exact congrArg₂ (· ++ ·) ha.binders hb.binders
    · exact congrArg₂ (· ++ ·) ha.outer hb.outer
  ident _ _ := .refl _
  hole := .refl _
  expr {e e' a b} _ _ he hab := by
    have hb : L.boxed? e a = L.boxed? e' b := by
      rw [boxed?, boxed?, Expr.ownSite?_of_head he, Expr.isClassLike_of_head he, hab.own]
    show Piece.Same (((L.boxed? e a).map L.box).getD (L.inside e a))
      (((L.boxed? e' b).map L.box).getD (L.inside e' b))
    rw [hb]
    cases L.boxed? e' b with
    | some site => exact .refl _
    | none =>
      refine ⟨?_, hab.refs, hab.own, rfl, rfl⟩
      exact congrArg₂ Cost.add hab.cost (congrArg Cost.const (L.tariff.exprCost_of_head he))
  stmt ht hab := by
    show Piece.Same (Piece.charged _ _) (Piece.charged _ _)
    rw [L.tariff.stmtCost_of_head ht]
    exact hab.charged _
  property _ hab := hab
  element {site target target' init init' a b} ht _ hi hab := by
    refine { hab with cost := congrArg₂ Cost.add hab.cost (congrArg Cost.const ?_) }
    exact L.tariff.declaratorCost_of_head ht hi
  declarator {site target target' init init' a b} _ ht _ hi hab := by
    refine { hab with cost := ?_, outer := ?_ }
    · show Cost.declarator _ _ target.isName init.isSome _ (L.tariff.nameCost target) _ =
        Cost.declarator _ _ target'.isName init'.isSome _ (L.tariff.nameCost target') _
      rw [hab.cost, Pattern.isName_of_head ht, L.tariff.nameCost_of_head ht, hi]
      rfl
    · show (_, a.binders) :: a.outer = (_, b.binders) :: b.outer
      rw [hab.binders, hab.outer]
      rfl
  funcDecl {f f' a b} _ hf hab := by
    show Piece.Same (L.named f.name (.func f) (a.charged _)) (L.named f'.name (.func f') (b.charged _))
    rw [Func.name_of_head hf, L.tariff.func_of_head hf]
    exact named_same _ _ _ (hab.charged _)
  clsDecl {c c' a b} _ hc hab := by
    show Piece.Same (L.named c.name (.cls c) (a.charged _)) (L.named c'.name (.cls c') (b.charged _))
    rw [Class.name_of_head hc, L.tariff.cls_of_head hc]
    exact named_same _ _ _ (hab.charged _)
  otherFunc hg := by
    rw [box_otherFunc h hg]
    exact .refl _
  otherClass hd := by
    rw [box_otherClass h hd]
    exact .refl _
  dropped _ _ hd := nomatch hd
  gone hr := absurd ⟨fun _ => rfl, fun _ => rfl, fun _ => rfl, rfl⟩ hr
  emptied hr := absurd ⟨fun _ => rfl, fun _ => rfl, fun _ => rfl, rfl⟩ hr

theorem renewExpr_same (h : L.Knows s) (e : Expr) :
    (e.fold L.fold).Same ((s.renewExpr e).fold L.fold) := by
  unfold State.renewExpr
  split
  · exact .refl _
  · exact (Expr.remove_related (renewal_removes h) e false Removal.allows_false).1

theorem renewStmt_same (h : L.Knows s) (t : Stmt) :
    (t.fold L.fold).Same ((s.renewStmt t).fold L.fold) := by
  unfold State.renewStmt
  split
  · exact .refl _
  · obtain ⟨ht, hm⟩ := Stmt.remove_related (renewal_removes h) t false Removal.allows_false
    refine ht.resolve_left fun hmark => ?_
    exact Removal.not_isUnmarked hm hmark ⟨fun _ => rfl, fun _ => rfl, fun _ => rfl, rfl⟩

end Ledger

end Deadwood
