import Deadwood.Proofs.Opening

/-!
# What is left after a pass

At the end of a pass nothing is owed any more: what has been visited late costs what the ledger says.
What is dead has been paid for, so the program that is left once it is swept costs no more than the ledger
charges.
-/

namespace Deadwood

open Elimination

namespace Ledger

/-- The ledger of a pass that visits nothing late. -/
def plain (L : Ledger) : Ledger := { L with late := [], price := fun _ => 0 }

variable (L : Ledger)

/-- What holds no box costs the same without boxes. -/
theorem plain_relates : L.fold.Relates L.plain.fold fun a b => (∀ x ∈ a.own, x ∉ L.late) → a = b where
  empty _ := rfl
  append h h' hn :=
    congrArg₂ Piece.append (h fun x hx => hn x (List.mem_append_left _ hx))
      (h' fun x hx => hn x (List.mem_append_right _ hx))
  ident _ _ _ := rfl
  expr e {a b} _ h hn := by
    have he := L.expr_unboxed hn
    rw [he] at hn ⊢
    rw [h hn]
    exact (L.plain.expr_unboxed fun x _ => List.not_mem_nil).symm
  stmt t {a b} _ h hn := congrArg (L.fold.stmt t) (h hn)
  declarator kind site target init h hn := congrArg (L.fold.declarator (.mk site target init)) (h hn)
  element kind site target init h hn := congrArg (L.fold.element (.mk site target init)) (h hn)
  funcDecl f h hn := congrArg (L.fold.funcDecl f) (h (L.funcDecl_own f _ ▸ hn))
  clsDecl c h hn := congrArg (L.fold.clsDecl c) (h (L.clsDecl_own c _ ▸ hn))
  property _ _ _ h := h
  hole _ := rfl

theorem piece_plain {d : Definition} (h : ∀ x ∈ (d.piece L).own, x ∉ L.late) : d.piece L = d.piece L.plain := by
  cases d with
  | «variable» init => exact Expr.foldOpt_related L.plain_relates init h
  | func f => exact congrArg (Piece.charged · _) (Func.fold_related L.plain_relates _ f h)
  | cls c => exact congrArg (Piece.charged · _) (Class.fold_related L.plain_relates _ c h)

/-- The ledger has been drawn up from the state in which a pass ends. -/
structure Closes (t : State) : Prop where
  dead : ∀ σ, σ ∈ L.dead ↔ σ ∈ t.dead ∧ σ ∈ L.entries.map Prod.fst
  late : ∀ σ, σ ∈ L.late ↔ σ ∈ t.late.map Prod.fst ∧ σ ∈ L.entries.map Prod.fst
  price : L.price = L.plain.value t

namespace Closes

variable {L} {t : State} {σ : Site}

theorem bounds (h : L.Closes t) : L.Bounds t :=
  ⟨fun σ hσ he => (h.dead σ).2 ⟨hσ, he⟩, fun σ hσ he => (h.late σ).2 ⟨hσ, he⟩⟩

theorem lookup (h : L.Closes t) (hσ : σ ∈ L.late) : ∃ d, t.late.lookup σ = some d := by
  obtain ⟨x, hx, rfl⟩ := List.mem_map.1 ((h.late σ).1 hσ).1
  exact Option.isSome_iff_exists.1 (List.lookup_isSome_iff.2 ⟨x, hx, beq_self_eq_true _⟩)

theorem price_eq (h : L.Closes t) {d : Definition} (hd : t.definition? σ = some d) :
    L.price σ = (d.piece L.plain).cost.val t.dead [] := by
  rw [h.price, value, hd]
  rfl

/-- Nothing is owed in the end. -/
theorem stake_nonneg (h : L.Closes t) (hs : L.Sound t) : 0 ≤ L.stake ∅ t := by
  refine Finset.sum_nonneg fun σ hσ => ?_
  have hdead := ((h.dead σ).1 (Finset.mem_sdiff.1 hσ).1).1
  rw [term, if_pos hdead]
  split
  next hl =>
    obtain ⟨d, hd⟩ := h.lookup hl.1
    obtain ⟨-, hdef, -, hu⟩ := hs.late hd
    have hv : L.value t σ = (d.piece L).cost.val t.dead [] := by
      rw [value, hdef]
      rfl
    rw [hv, h.price_eq hdef, L.piece_plain hu]
    omega
  · exact Int.le_refl 0

end Closes

end Ledger

/-! ### Sweeping -/

namespace Cost

variable {cut hasInit isName : Bool} {site : Site} {u n : Nat} {c c' : Cost} {d r : List Site}

theorem declarator_mono (h : c'.val d r ≤ c.val d r) :
    (declarator cut site isName hasInit u n c').val d r ≤ (declarator cut site isName hasInit u n c).val d r := by
  simp only [declarator]
  split
  · exact Nat.le_refl 0
  · split
    · split
      · exact Nat.le_refl n
      · split <;> omega
    · omega

/-- A declarator that stays costs what the tariff says. -/
theorem tariff_le_declarator (T : Tariff) (target : Pattern) (init : Option Expr) {m : Nat} (hs : site ∉ d)
    (h : m ≤ c.val d []) : m + T.declaratorCost (.mk site target init) ≤
      (declarator false site target.isName init.isSome T.unit n c).val d [] := by
  simp only [declarator, if_neg hs, Tariff.declaratorCost, Declarator.bulk, Nat.add_mul]
  cases target.isName
  · simp only [Bool.false_eq_true, if_false, Bool.not_false, Bool.toNat_true]
    omega
  · simp only [Bool.false_eq_true, if_false, if_true, List.not_mem_nil, Bool.not_true, Bool.toNat_false]
    omega

end Cost

theorem Elimination.State.alive_name {t : State} {name : Option Ident}
    (hn : (name.any fun id => t.isDead id.site) = false)
    (id : Ident) (hid : name = some id) : id.site ∉ t.dead := by
  subst hid
  exact State.isDead_eq_false_iff.1 hn

namespace Ledger

variable {L : Ledger} {t : State}

/-- The ledger charges for `a` in the end at least what it charges for `b`. -/
def Charges (D : List Site) (a b : Piece) : Prop := b.cost.val D [] ≤ a.cost.val D []

theorem Charges.charged {D : List Site} {a b : Piece} {n m : Nat} (h : Charges D a b) (hm : m = n) :
    Charges D (a.charged n) (b.charged m) := hm ▸ Nat.add_le_add_right h _

/-- A function or class that is a box has another one for it. -/
theorem Closes.not_boxed (h : L.Closes t) (hs : L.Sound t) {e : Expr} (a : Piece)
    (hf : ∀ f, e = .func f → t.renewal.otherFunc f = none)
    (hc : ∀ c, e = .cls c → t.renewal.otherClass c = none) : L.boxed? e a = none := by
  rw [boxed?, Option.filter_eq_none_iff]
  intro σ hσ hb
  obtain ⟨hl, -, hk⟩ := of_decide_eq_true hb
  obtain ⟨d, hd⟩ := h.lookup hl
  obtain ⟨-, hdef, hn, -⟩ := hs.late hd
  have hat := (hs.knows h.bounds σ d hd).2
  cases e with
  | func f =>
    obtain ⟨id, hid, rfl⟩ := Option.map_eq_some_iff.1 hσ
    have hnone := hf f rfl
    simp only [State.renewal, hid, Option.bind_some, hd] at hnone
    cases d with
    | func g => cases hnone
    | cls c => cases hat.2.symm.trans hk
    | «variable» => cases hn
  | cls c =>
    obtain ⟨id, hid, rfl⟩ := Option.map_eq_some_iff.1 hσ
    have hnone := hc c rfl
    simp only [State.renewal, hid, Option.bind_some, hd] at hnone
    cases d with
    | func g => cases hat.2.symm.trans hk
    | cls c => cases hnone
    | «variable» => cases hn
  | _ => cases hσ

theorem plain_expr (L : Ledger) (e : Expr) (a : Piece) : L.plain.fold.expr e a = L.inside e a :=
  L.plain.expr_unboxed fun _ _ => List.not_mem_nil

theorem named_charges {D : List Site} {a b : Piece} {name name' : Option Ident} (hn : name = name')
    (d d' : Definition) (h : Charges D a b) :
    Charges D (L.named name d a) (L.plain.named name' d' b) := by
  subst hn
  cases name with
  | none => exact h
  | some id =>
    show (if id.site ∈ L.dead then Cost.const 0 else b.cost).val D [] ≤
      (if id.site ∈ L.dead then Cost.const 0 else a.cost).val D []
    split
    · exact Nat.le_refl 0
    · exact h

/-- What has been visited late takes the place of its boxes, for the price of the ledger. -/
theorem Closes.renews (h : L.Closes t) (hs : L.Sound t) :
    Removes t.renewal L.fold L.plain.fold (Charges t.dead) where
  empty_left := L.plain.fold_lawful.empty_left
  empty := Nat.le_refl 0
  append := Nat.add_le_add
  ident _ _ := Nat.le_refl _
  hole := Nat.le_refl 0
  expr {e e' a b} hf hc he hab := by
    have hbox : L.fold.expr e a = L.inside e a := by
      show ((L.boxed? e a).map L.box).getD _ = _
      rw [h.not_boxed hs a hf hc]
      rfl
    rw [hbox, L.plain_expr]
    exact hab.charged (L.tariff.exprCost_of_head he).symm
  stmt {x x' a b} hx hab := hab.charged (L.tariff.stmtCost_of_head hx).symm
  property _ hab := hab
  declarator {site target target' init init' a b} _ ht _ hi hab := by
    have hd : (L.plain.fold.declarator (.mk site target' init') b).cost.val t.dead [] =
        (Cost.declarator (site ∈ L.dead) site target.isName init.isSome L.tariff.unit
          (L.tariff.nameCost target) b.cost).val t.dead [] := by
      rw [Pattern.isName_of_head ht, L.tariff.nameCost_of_head ht, hi]
      rfl
    show _ ≤ _
    rw [hd]
    exact Cost.declarator_mono hab
  element {site target target' init init' a b} ht _ hi hab := by
    exact hab.charged (L.tariff.declaratorCost_of_head ht hi).symm
  funcDecl _ hf hab := named_charges (Func.name_of_head hf) _ _ (hab.charged (L.tariff.func_of_head hf).symm)
  clsDecl _ hc hab := named_charges (Class.name_of_head hc) _ _ (hab.charged (L.tariff.cls_of_head hc).symm)
  otherFunc {f g} hg := by
    obtain ⟨id, hid, hg⟩ := Option.bind_eq_some_iff.1 hg
    obtain ⟨d, hd, hg⟩ := Option.bind_eq_some_iff.1 hg
    obtain ⟨hl, hat⟩ := hs.knows h.bounds _ _ hd
    cases d with
    | func g' =>
      cases hg
      rw [L.func_box (congrArg (Option.map Ident.site) hid) hat.2 hl]
      show ((Expr.func g).fold L.plain.fold).cost.val t.dead [] ≤ L.price id.site
      rw [h.price_eq (hs.late hd).2.1, Expr.fold, L.plain.expr_unboxed fun _ _ => List.not_mem_nil, inside_func]
    | _ => cases hg
  otherClass {c d} hd := by
    obtain ⟨id, hid, hd⟩ := Option.bind_eq_some_iff.1 hd
    obtain ⟨e, he, hd⟩ := Option.bind_eq_some_iff.1 hd
    obtain ⟨hl, hat⟩ := hs.knows h.bounds _ _ he
    cases e with
    | cls d' =>
      cases hd
      rw [L.cls_box (congrArg (Option.map Ident.site) hid) hat.2 hl]
      show ((Expr.cls d).fold L.plain.fold).cost.val t.dead [] ≤ L.price id.site
      rw [h.price_eq (hs.late he).2.1, Expr.fold, L.plain.expr_unboxed fun _ _ => List.not_mem_nil, inside_cls]
    | _ => cases hd
  dropped _ _ hd := nomatch hd
  gone hr := absurd ⟨fun _ => rfl, fun _ => rfl, fun _ => rfl, rfl⟩ hr
  emptied hr := absurd ⟨fun _ => rfl, fun _ => rfl, fun _ => rfl, rfl⟩ hr

theorem le_named {D : List Site} {a : Piece} {n : Nat} {name : Option Ident}
    (hn : ∀ id, name = some id → id.site ∉ L.dead) (d : Definition) (h : n ≤ a.cost.val D []) :
    n ≤ (L.named name d a).cost.val D [] := by
  cases name with
  | none => exact h
  | some id =>
    simp only [named, if_neg (hn id rfl)]
    exact h

/-- A ledger without dead declarations charges what the tariff says. -/
theorem charges_tariff (hd : L.dead = ∅) (hl : L.late = []) :
    L.fold.Relates L.tariff.fold fun a n => n ≤ a.cost.val [] [] where
  empty := Nat.le_refl 0
  append := Nat.add_le_add
  ident _ _ := Nat.le_refl _
  expr e {a n} _ h := by
    rw [L.expr_unboxed fun _ _ => hl ▸ List.not_mem_nil]
    exact Nat.add_le_add_right h _
  stmt x {a n} _ h := Nat.add_le_add_right h _
  declarator kind site target init h := by
    have hcut : decide (site ∈ L.dead) = false := by simp [hd]
    show _ ≤ (Cost.declarator (decide (site ∈ L.dead)) site target.isName init.isSome _ _ _).val [] []
    rw [hcut]
    exact Cost.tariff_le_declarator L.tariff target init List.not_mem_nil h
  element kind site target init h := Nat.add_le_add_right h _
  funcDecl f h := le_named (fun _ _ => by simp [hd]) (.func f) (Nat.add_le_add_right h _)
  clsDecl c h := le_named (fun _ _ => by simp [hd]) (.cls c) (Nat.add_le_add_right h _)
  property _ _ _ h := h
  hole := Nat.le_refl 0

theorem Closes.alive_name (h : L.Closes t) {name : Option Ident} (hn : (name.any fun id => t.isDead id.site) = false)
    (id : Ident) (hid : name = some id) : id.site ∉ L.dead :=
  fun hσ => State.alive_name hn id hid ((h.dead _).1 hσ).1

/-- What is dead goes without cost. -/
theorem Closes.sweeps (h : L.Closes t) :
    Removes t.buried.removal L.plain.fold L.tariff.fold fun a n => n ≤ a.cost.val t.dead [] where
  empty_left := Nat.zero_add
  empty := Nat.le_refl 0
  append := Nat.add_le_add
  ident _ _ := Nat.le_refl _
  hole := Nat.le_refl 0
  expr {e e' a b} _ _ he hab := by
    rw [L.plain_expr]
    exact Nat.add_le_add hab (Nat.le_of_eq (L.tariff.exprCost_of_head he).symm)
  stmt {x x' a b} hx hab := Nat.add_le_add hab (Nat.le_of_eq (L.tariff.stmtCost_of_head hx).symm)
  property _ hab := hab
  declarator {site target target' init init' a b} hs ht _ hi hab := by
    have hs : site ∉ t.dead := State.isDead_eq_false_iff.1 hs
    have hcut : decide (site ∈ L.dead) = false := decide_eq_false fun hσ => hs ((h.dead site).1 hσ).1
    show b + L.tariff.declaratorCost (.mk site target' init') ≤
      (Cost.declarator (decide (site ∈ L.dead)) site target.isName init.isSome _ _ a.cost).val t.dead []
    rw [hcut, Pattern.isName_of_head ht, hi]
    exact Cost.tariff_le_declarator L.tariff target' init' hs hab
  element {site target target' init init' a b} ht _ hi hab :=
    Nat.add_le_add hab (Nat.le_of_eq (L.tariff.declaratorCost_of_head ht hi).symm)
  funcDecl {f f' a b} hn hf hab :=
    le_named (h.alive_name hn) (.func f) (Nat.add_le_add hab (Nat.le_of_eq (L.tariff.func_of_head hf).symm))
  clsDecl {c c' a b} hn hc hab :=
    le_named (h.alive_name hn) (.cls c) (Nat.add_le_add hab (Nat.le_of_eq (L.tariff.cls_of_head hc).symm))
  otherFunc hg := nomatch hg
  otherClass hd := nomatch hd
  dropped kind d hd := Nat.zero_le _
  gone _ _ := Nat.zero_le _
  emptied _ x := by
    have he : Stmt.empty.fold L.tariff.fold = L.tariff.unit := (Nat.zero_add _).trans (Nat.one_mul _)
    rw [he]
    exact Nat.le_trans (L.unit_le_stmtCost x) (stmtCost_le (L := L.plain) x _ _)

/-- What is left of a program once it is swept costs no more than the ledger charges. -/
theorem Closes.sweep_cost (h : L.Closes t) (hs : L.Sound t) (p : Program) :
    (t.sweep p).fold L.tariff.fold ≤ (p.fold L.fold).cost.val t.dead [] := by
  rw [State.sweep_eq]
  split
  next hempty =>
    have hnil : t.dead = [] := List.isEmpty_iff.1 hempty
    have hd : L.dead = ∅ := by
      refine Finset.eq_empty_iff_forall_notMem.2 fun σ hσ => ?_
      have hσ := ((h.dead σ).1 hσ).1
      rw [hnil] at hσ
      exact List.not_mem_nil hσ
    have hl : L.late = [] := by
      refine List.eq_nil_iff_forall_not_mem.2 fun σ hσ => ?_
      obtain ⟨d, hd⟩ := h.lookup hσ
      have hσ := (hs.late hd).1
      rw [hnil] at hσ
      exact List.not_mem_nil hσ
    rw [hnil]
    exact Program.fold_related (charges_tariff hd hl) p
  next =>
    have hr : Charges t.dead (p.fold L.fold) ((p.remove t.renewal).fold L.plain.fold) :=
      Program.remove_related (h.renews hs) p
    exact Nat.le_trans (Program.remove_related h.sweeps _) hr

end Ledger

/-! ### A pass -/

namespace Ledger

variable {a : Sites} {info : Info}

/-- The ledger of a pass from `s` to `t`, as if nothing were visited late. -/
def between (T : Tariff) (h : Numbered a info) (s t : State) : Ledger where
  tariff := T
  entries := a.decls
  nodup := (List.nodup_append.1 h.nodup).1
  pos e he := (h.range e.1 (List.mem_append_left _ (List.mem_map_of_mem he))).1
  elems := a.elems
  apart e he hel :=
    (List.nodup_append.1 h.nodup).2.2 e.1 (List.mem_map_of_mem he) e.1 (List.mem_append_right _ hel) rfl
  dead := t.dead.toFinset ∩ (a.decls.map Prod.fst).toFinset
  alive σ hσ hd := by
    have hd := List.mem_toFinset.1 (Finset.mem_inter.1 hd).2
    exact (List.nodup_append.1 h.nodup).2.2 σ hd σ (List.mem_append_right _ hσ) rfl
  isClass σ := (s.definition? σ).any fun d => d.cls?.isSome
  late := []
  price _ := 0

/-- The ledger of a pass from `s` to `t`. -/
def ofPass (T : Tariff) (h : Numbered a info) (s t : State) : Ledger :=
  { between T h s t with
    late := (t.late.map Prod.fst).filter (· ∈ a.decls.map Prod.fst)
    price := (between T h s t).value t }

theorem ofPass_closes (T : Tariff) (h : Numbered a info) (s t : State) : (ofPass T h s t).Closes t where
  dead σ := by simp only [ofPass, between, Finset.mem_inter, List.mem_toFinset]
  late σ := by simp only [ofPass, between, List.mem_filter, decide_eq_true_eq]
  price := rfl

end Ledger

/-- What a pass leaves, with the changes it makes, costs no more than the program before, whatever the
tariff. -/
theorem Program.pass_cost (T : Tariff) (p : Program) {info : Info} (usage : Usage)
    (h : Numbered (p.fold Fold.sites) info) :
    let r := Stmt.eliminateList false p.body (State.start p info usage)
    (r.2.sweep { body := r.1 }).fold T.fold + r.2.changes.length * T.unit ≤ p.fold T.fold := by
  intro r
  let L := Ledger.ofPass T h (State.start p info usage) r.2
  have hclose : L.Closes r.2 := Ledger.ofPass_closes T h _ r.2
  have hsuits : L.Suits p (State.start p info usage) :=
    ⟨rfl, rfl, fun σ hσ => ((hclose.late σ).1 hσ).2, fun _ => rfl⟩
  have hvisit : L.Visit (p.fold L.fold) (State.start p info usage) (Stmt.foldList L.fold r.1) r.2 :=
    Stmt.eliminateList_visits L.visits false p.body (State.start p info usage)
  have hdone := hvisit.done (hsuits.ready h) hclose.bounds
  have hstart := hsuits.cost h fun σ hσ => ((hclose.dead σ).1 hσ).2
  have haccount := hdone.account ∅ nofun
  have hstake := hclose.stake_nonneg hdone.sound
  have hsweep := hclose.sweep_cost hdone.sound { body := r.1 }
  have hnone : L.spent (State.start p info usage) = 0 := Nat.zero_mul _
  rw [Ledger.Accounts, hnone] at haccount
  show (r.2.sweep { body := r.1 }).fold L.tariff.fold + L.spent r.2 ≤ p.fold L.tariff.fold
  have hprogram : (Program.fold L.fold { body := r.1 }) = Stmt.foldList L.fold r.1 := rfl
  have hempty : (State.start p info usage).dead = [] ∧ (State.start p info usage).trimmed = [] := ⟨rfl, rfl⟩
  rw [hprogram] at hsweep
  rw [hempty.1, hempty.2] at haccount
  omega

end Deadwood
