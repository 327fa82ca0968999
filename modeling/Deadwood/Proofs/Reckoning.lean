import Deadwood.Proofs.Orderly
import Deadwood.Proofs.References
import Deadwood.Proofs.Scoping
import Deadwood.Proofs.Termination
import Deadwood.Proofs.Unreached
import Mathlib.Logic.Relation

/-!
# The account of a pass

What is inlined in a pass over a resolved program is only referred to in the room it is declared in.
-/

namespace Deadwood

open Elimination

variable {p q : Program} {info : Info} {W : Watch} {xs : List Site}

/-- The bindings that are inlined are such that a pass inlines which lists the declarators `xs`. -/
structure Watch.Fair (W : Watch) (info : Info) (xs : List Site) : Prop where
  bound : ∀ y, info.boundAt? y = W.bound y
  origin : ∀ {j d}, info.binding? j = some d → W.origin j = d.origin.site?
  known : ∀ j ∈ W.inlined, ∃ d, info.binding? j = some d
  exported : ∀ j ∈ W.inlined, ∀ {d}, info.binding? j = some d → d.isExported = false
  fixed : ∀ j ∈ W.inlined, ∀ {d}, info.binding? j = some d → d.kind.isFixed = false
  held : ∀ j ∈ W.inlined, ∀ {d}, info.binding? j = some d → ∀ σ, d.origin = .declarator σ →
    σ ∈ xs ∧ ¬ (d.kind = .var ∧ d.declScope ≠ d.scope)

theorem Watch.Fair.scope (h : W.Fair info xs) (hq : p.resolve = (q, info)) {j : BindingId} (hj : j ∈ W.inlined)
    {d : Binding} (hd : info.binding? j = some d) (ho : d.origin.site? ≠ none) : d.scope = d.declScope := by
  rcases Program.resolve_scope hq hd ho with hs | hk | ⟨hk, σ, hσ⟩
  · exact hs
  · have hf := h.fixed j hj hd
    rw [hk] at hf
    cases hf
  · by_contra hne
    exact (h.held j hj hd σ hσ).2 ⟨hk, fun h => hne h.symm⟩

/-- A declarator that stands alone or in an export is never listed, so its names are not inlined. -/
theorem Watch.Fair.loose (h : W.Fair info xs) (hq : p.resolve = (q, info))
    (hxs : xs ⊆ (q.fold W.fold).lists ++ (q.fold W.fold).tops) : ∀ σ ∈ (q.fold Fold.rooms).loose, σ ∉ W.gone := by
  intro σ hσ hg
  obtain ⟨j, hj, ho⟩ := W.mem_gone.1 hg
  obtain ⟨d, hd⟩ := h.known j hj
  have hlisted := hxs (h.held j hj hd σ (Program.resolve_declarator hq hd (.inr hσ) ((h.origin hd).symm.trans ho))).1
  have hfits := Program.fold_related (Rooms.fits_relates W) q
  -- The site of a declarator is there once.
  have hcount := Program.fold_related Rooms.counted_relates q σ
  have hone := List.nodup_iff_count_le_one.1 (List.nodup_append.1 (Program.numbered_of_resolve hq).nodup).1 σ
  have hpos : 0 < (q.fold Fold.rooms).loose.count σ := List.count_pos_iff.2 hσ
  rcases List.mem_append.1 hlisted with hl | ht
  · have := List.count_pos_iff.2 (hfits.lists σ hl)
    omega
  · rcases (hfits.tops σ).1 ht with hv | hh
    · have := List.count_pos_iff.2 hv
      omega
    · have := List.count_pos_iff.2 hh
      omega

/-- What is inlined is only referred to in its room, in an orderly program. -/
theorem Watch.Fair.quiet (h : W.Fair info xs) (hp : p.Orderly) (hq : p.resolve = (q, info))
    (hxs : xs ⊆ (q.fold W.fold).lists ++ (q.fold W.fold).tops) : (q.fold Fold.rooms).Quiet W where
  rooms room hroom j hj σ hσ ho y hy := by
    obtain ⟨d, hd⟩ := h.known j hj
    rw [h.origin hd] at ho
    have hs := h.scope hq hj hd (by rw [ho]; nofun)
    exact Program.resolve_rooms hq hd hs (h.exported j hj hd) room hroom σ hσ ho y ((h.bound y).trans hy)
  loose := h.loose hq hxs
  fixed σ hσ hg := by
    obtain ⟨j, hj, ho⟩ := W.mem_gone.1 hg
    obtain ⟨d, hd⟩ := h.known j hj
    have he := Program.resolve_fixed hq hd hσ ((h.origin hd).symm.trans ho)
    cases he.symm.trans (h.exported j hj hd)
  stray σ hσ := by
    rw [(hq ▸ hp.resolve : Program.Orderly (q, info).1).stray] at hσ
    cases hσ

/-- The uses of an orderly program are closed in. -/
theorem Watch.Fair.closed (h : W.Fair info xs) (hp : p.Orderly) (hq : p.resolve = (q, info))
    (hxs : xs ⊆ (q.fold W.fold).lists ++ (q.fold W.fold).tops) : (q.fold W.fold).closed :=
  (Program.fold_related (Rooms.fits_relates W) q).closed (h.quiet hp hq hxs)

/-! ### What is known of a pass -/

open Classical in
/-- A binding is watched in a pass from `s` to `t`. -/
noncomputable def Watch.ofPass (s t : State) (target : BindingId) (h : s.info.boundAt? 0 = none) : Watch where
  target := target
  bound := s.info.boundAt?
  origin j := (s.info.binding? j).bind (·.origin.site?)
  inlined := (Finset.range s.info.bindings.size).filter fun j => t.Unbound j ∧ ¬ s.Unbound j
  before := s.Unbound
  unsited := h

section

variable {s t : State} {target : BindingId} {h0 : s.info.boundAt? 0 = none} {j : BindingId}

theorem Watch.mem_ofPass : j ∈ (Watch.ofPass s t target h0).inlined ↔
    j < s.info.bindings.size ∧ t.Unbound j ∧ ¬ s.Unbound j := by
  simp only [ofPass, Finset.mem_filter, Finset.mem_range]

theorem Watch.ofPass_fair (hs : s.Leads t) (hc : ∀ j, t.Unbound j → s.Unbound j ∨ t.Chosen j) :
    (Watch.ofPass s t target h0).Fair s.info t.listed := by
  have hchosen {j : BindingId} (hj : j ∈ (Watch.ofPass s t target h0).inlined) {d : Binding}
      (hd : s.info.binding? j = some d) :
      d.isExported = false ∧ d.kind.isFixed = false ∧
        ∀ σ, d.origin = .declarator σ → σ ∈ t.listed ∧ ¬ (d.kind = .var ∧ d.declScope ≠ d.scope) := by
    obtain ⟨-, ht, hn⟩ := mem_ofPass.1 hj
    obtain ⟨c, hct⟩ : ∃ c, t.info.binding? j = some c :=
      ⟨_, Array.getElem?_eq_some_iff.2 ⟨hs.size ▸ (Array.getElem?_eq_some_iff.1 hd).1, rfl⟩⟩
    obtain ⟨b, n, hb, rfl⟩ := hs.bindings hct
    cases hd.symm.trans hb
    obtain ⟨he, hk, hl⟩ := (hc j ht).resolve_left hn _ hct
    exact ⟨he, hk, hl⟩
  exact
    { bound := fun _ => rfl
      origin := fun {j d} hd => by simp only [ofPass, hd, Option.bind_some]
      known := fun j hj => ⟨_, Array.getElem?_eq_some_iff.2 ⟨(mem_ofPass.1 hj).1, rfl⟩⟩
      exported := fun j hj d hd => (hchosen hj hd).1
      fixed := fun j hj d hd => (hchosen hj hd).2.1
      held := fun j hj d hd => (hchosen hj hd).2.2 }

theorem Watch.ofPass_bounds (ht : ¬ t.Unbound target) : (Watch.ofPass s t target h0).Bounds t where
  unbound j hj := by
    by_cases hsj : s.Unbound j
    · exact .inl hsj
    · refine .inr (mem_ofPass.2 ⟨?_, hj, hsj⟩)
      by_contra hlt
      refine hsj fun c hc => ?_
      exact absurd (Array.getElem?_eq_some_iff.1 hc).1 hlt
  target := ht

end

/-! ### What is charged at first -/

namespace Watch

variable {L : Ledger} {a a' : Piece} {b c : Uses W}

/-- What is owed at first for a declaration with the given content. -/
def owed (W : Watch) (c : Site × Option Definition) : Nat :=
  if c.1 ∈ W.gone then (c.2.map fun d => ((d.uses W).cost []).val [] []).getD 0 else 0

def owes (W : Watch) (a : Piece) : Nat := (a.contents.map W.owed).sum

theorem owes_cons {e : Site × Option Definition} (h : a'.contents = e :: a.contents) :
    W.owes a' = W.owed e + W.owes a := by
  rw [owes, h, List.map_cons, List.sum_cons, owes]

/-- What is charged at first, and what is owed, are uses. -/
def Funded (a : Piece) (b : Uses W) : Prop := (b.cost []).val [] [] + W.owes a ≤ b.live []

theorem Funded.alike (h : Funded a b) (ha : a'.contents = a.contents) (hb : Uses.Alike b c) : Funded a' c := by
  rw [Funded, owes, ha, hb.cost, hb.live]
  exact h

theorem Funded.append {a₂ : Piece} {b₂ : Uses W} (h : Funded a b) (h₂ : Funded a₂ b₂) :
    Funded (a.append a₂) (b.append b₂) := by
  have howes : W.owes (a.append a₂) = W.owes a + W.owes a₂ := by
    rw [owes, Piece.append, List.map_append, List.sum_append]
    rfl
  have hcost : ((b.append b₂).cost []).val [] [] = (b.cost []).val [] [] + (b₂.cost []).val [] [] := rfl
  have hlive : (b.append b₂).live [] = b.live [] + b₂.live [] := rfl
  rw [Funded] at h h₂ ⊢
  omega

/-- The value of a name is owed where the name is inlined, and charged with it where it is not. -/
theorem Funded.declarator (kind : BindingKind) (site : Site) (target : Pattern) (init : Option Expr)
    (h : Funded (W := W) ((target.fold L.fold kind).append (Expr.foldOpt L.fold init))
      ((target.fold W.fold kind).append (Expr.foldOpt W.fold init))) :
    Funded (W := W) ((Declarator.mk site target init).fold L.fold kind)
      ((Declarator.mk site target init).fold W.fold kind) := by
  have howes : W.owes ((Declarator.mk site target init).fold L.fold kind) =
      W.owed (site, if target.isName then some (.variable init) else none) +
        W.owes ((target.fold L.fold kind).append (Expr.foldOpt L.fold init)) := owes_cons rfl
  have hlive : ((Declarator.mk site target init).fold W.fold kind).live [] =
      ((target.fold W.fold kind).append (Expr.foldOpt W.fold init)).live [] :=
    Uses.declared_alive _ _ _ List.not_mem_nil
  rw [Funded] at h ⊢
  rw [howes, hlive]
  by_cases hp : target.isName = true ∧ site ∈ W.gone
  · cases target with
    | ident id =>
      have hcut : (((Declarator.mk site (.ident id) init).fold W.fold kind).cost []).val [] [] ≤ W.uses id :=
        (Cost.declared_cut List.not_mem_nil ⟨rfl, .inl (decide_eq_true ⟨hp.2, List.not_mem_nil⟩)⟩).trans_le
          (Nat.min_le_left _ _)
      have howed : W.owed (site, some (.variable init)) = ((Expr.foldOpt W.fold init).cost []).val [] [] := if_pos hp.2
      have hparts : ((((Pattern.ident id).fold W.fold kind).append (Expr.foldOpt W.fold init)).cost []).val [] [] =
          W.uses id + ((Expr.foldOpt W.fold init).cost []).val [] [] := rfl
      simp only [Pattern.isName, if_true, howed]
      omega
    | _ => cases hp.1
  · have hplace : (((Declarator.mk site target init).fold W.fold kind).cost []).val [] [] =
        (((target.fold W.fold kind).append (Expr.foldOpt W.fold init)).cost []).val [] [] :=
      Cost.declared_place List.not_mem_nil fun hn => ⟨decide_eq_false fun hg => hp ⟨hn, hg.1⟩, List.not_mem_nil⟩
    have howed : W.owed (site, if target.isName then some (.variable init) else none) = 0 := by
      by_cases hg : site ∈ W.gone
      · rw [if_neg fun hn => hp ⟨hn, hg⟩]
        exact ite_self 0
      · exact if_neg hg
    omega

/-- A function or class is owed where its name is inlined, and charged in its place where it is not. -/
theorem Funded.named (name : Option Ident) {d : Definition} (hd : d.uses W = b.close) (h : Funded a b) :
    Funded (L.named name d a) (b.named name) := by
  cases name with
  | none => exact h
  | some id =>
    have howes : W.owes (L.named (some id) d a) = W.owed (id.site, some d) + W.owes a := owes_cons rfl
    have hlive : (b.named (some id)).live [] = b.live [] := Uses.named_alive _ b fun _ _ => List.not_mem_nil
    have hcost : ((b.named (some id)).cost []).val [] [] = if id.site ∈ W.gone then 0 else (b.cost []).val [] [] :=
      head_charge b [] List.not_mem_nil
    rw [Funded] at h ⊢
    rw [howes, hlive, hcost]
    by_cases hg : id.site ∈ W.gone
    · have howed : W.owed (id.site, some d) = (b.cost []).val [] [] := by
        rw [owed, if_pos hg, Option.map_some, Option.getD_some, hd]
        rfl
      rw [if_pos hg, howed]
      omega
    · have howed : W.owed (id.site, some d) = 0 := if_neg hg
      rw [if_neg hg, howed]
      omega

theorem funded_relates (W : Watch) (L : Ledger) :
    L.fold.Relates W.fold fun a b => (∀ x ∈ a.own, x ∉ L.late) → Funded a b where
  empty _ := Nat.le_refl 0
  append h h' hn :=
    (h fun x hx => hn x (List.mem_append_left _ hx)).append (h' fun x hx => hn x (List.mem_append_right _ hx))
  ident _ _ _ := Nat.le_refl _
  expr e {a b} _ h hn := by
    have he := L.expr_unboxed hn
    rw [he] at hn ⊢
    exact (h hn).alike rfl (.close b)
  stmt x {a b} _ h hn := (h hn).alike rfl (.stmt x.place b)
  declarator kind site target init h hn := .declarator kind site target init (h hn)
  element kind site target init h hn := (h hn).alike rfl ⟨fun _ => rfl, fun _ => rfl⟩
  funcDecl f h hn := .named f.name rfl ((h (L.funcDecl_own f _ ▸ hn)).alike rfl (.refl _))
  clsDecl c h hn := .named c.name rfl ((h (L.clsDecl_own c _ ▸ hn)).alike rfl (.refl _))
  property _ _ _ h := h
  hole _ := Nat.le_refl 0

/-- What a program is charged at the start of a pass, and what is owed then, are its uses. -/
theorem funded_start {usage : Usage} (h : L.Suits p (.start p info usage)) (hp : Numbered (p.fold Fold.sites) info)
    (hd : ∀ σ ∈ W.gone, σ ∈ L.entries.map Prod.fst) :
    ((p.fold W.fold).cost []).val [] [] + W.stake ∅ (.start p info usage) ≤ (p.fold W.fold).live [] := by
  have hstake : W.stake ∅ (.start p info usage) = W.owes (p.fold L.fold) := by
    rw [stake, Finset.sdiff_empty]
    exact h.sum_contents hp hd fun d => (d.map fun d : Definition => ((d.uses W).cost []).val [] []).getD 0
  rw [hstake]
  exact Program.fold_related (funded_relates W L) p (h.toSites hp).2

/-! ### What is there to be counted -/

/-- As long as nothing is dead, all identifiers that use the binding are live. -/
theorem live_relates (W : Watch) : W.fold.Relates (Fold.idents fun _ => true) fun a ids => W.count ids = a.live [] where
  empty := rfl
  append h h' := by
    show List.countP _ (_ ++ _) = _ + _
    rw [List.countP_append]
    exact congrArg₂ (· + ·) h h'
  ident _ id := by
    show List.countP _ [id] = if _ then 1 else 0
    simp [List.countP_singleton]
  expr _ _ _ _ h := h
  stmt x a _ _ h := h.trans (congrFun (Uses.stmt_live x.place a).symm [])
  declarator _ _ _ _ h := h.trans (Uses.declared_alive _ _ _ List.not_mem_nil).symm
  element _ _ _ _ h := h
  funcDecl f h := h.trans (Uses.named_alive f.name _ fun _ _ => List.not_mem_nil).symm
  clsDecl c h := h.trans (Uses.named_alive c.name _ fun _ _ => List.not_mem_nil).symm
  property _ _ _ h := h
  hole := rfl

end Watch

/-- The mentions of a binding are the identifiers that refer to it. -/
theorem mentions_relates (info : Info) (i : BindingId) : (Fold.mentions info).Relates (Fold.idents fun _ => true)
    fun ms ids => (ms.countP fun m => m.target = i) = ids.countP fun id => info.bindingOf? id = some i where
  empty := rfl
  append h h' := by
    show List.countP _ (_ ++ _) = List.countP _ (_ ++ _)
    rw [List.countP_append, List.countP_append, h, h']
  ident _ id := by
    show _ = List.countP _ [id]
    rw [List.countP_singleton]
    show List.countP _ ((info.bindingOf? id).toList.map fun b => Mention.mk b none) = _
    cases info.bindingOf? id with
    | none => rfl
    | some b => simp [List.countP_singleton]
  expr _ _ _ _ h := h
  stmt _ _ _ _ h := h
  declarator _ _ _ _ h := (List.countP_map ..).trans h
  element _ _ _ _ h := (List.countP_map ..).trans h
  funcDecl _ h := (List.countP_map ..).trans h
  clsDecl _ h := (List.countP_map ..).trans h
  property _ _ _ h := h
  hole := rfl

/-- In an orderly program, each reference is counted once. -/
theorem Program.Orderly.references (h : p.Orderly) (hq : p.resolve = (q, info)) {i : BindingId} {b : Binding}
    (hb : info.binding? i = some b) : b.references = q.idents.countP fun id => info.bindingOf? id = some i :=
  (Program.resolve_references h.idle hq hb).trans (Program.fold_related (mentions_relates info i) q)

/-- The references of a piece stand among what resolution gives sites of their own. -/
theorem references_sublist : (Fold.idents (· = .reference)).Relates Fold.occurrences
    fun ids xs => (ids.map Ident.site).Sublist xs where
  empty := .refl _
  append h h' := by
    show (List.map _ (_ ++ _)).Sublist (_ ++ _)
    rw [List.map_append]
    exact h.append h'
  ident role id := by
    cases role with
    | reference => exact .refl _
    | _ => exact List.nil_sublist _
  expr _ _ _ _ h := h
  stmt _ _ _ _ h := h
  declarator _ _ _ _ h := h
  element _ _ _ _ h := h
  funcDecl _ h := h
  clsDecl _ h := h
  property _ _ _ h := h
  hole := .refl _

namespace Watch

/-- No two references of a resolved program have one site. -/
theorem sites_nodup (W : Watch) (p : Program) : (p.resolve.1.fold W.fold).sites.Nodup := by
  rw [Program.fold_related W.references_relates p.resolve.1]
  exact p.resolve_occurrences_nodup.sublist (Program.fold_related references_sublist p.resolve.1)

/-! ### The start of a pass -/

/-- What a definition uses is closed in. -/
structure Enclosed (W : Watch) (d : Definition) : Prop where
  closed : (d.uses W).closed
  tops : (d.uses W).tops = []

/-- Only what is inlined and referred to inside of a definition is missing where its uses are charged. -/
theorem Enclosed.home {d : Definition} (h : W.Enclosed d) (D : List Site) : (d.uses W).Home D := fun D' _ hs =>
  (d.uses W).live_le h.closed hs fun σ hσ => by
    rw [h.tops] at hσ
    cases hσ

theorem enclosed_init {init : Option Expr} (h : (Expr.foldOpt W.fold init).closed) : W.Enclosed (.variable init) where
  closed := h
  tops := by
    cases init with
    | none => rfl
    | some e => cases e <;> rfl

theorem named_closed {name : Option Ident} {a : Uses W} (h : (a.named name).closed) : a.close.closed := by
  cases name <;> exact h

/-- The definitions of a program whose uses are closed in are closed in themselves. -/
theorem definitions_relates (W : Watch) :
    declarations.Relates W.fold fun ds a => a.closed → ∀ e ∈ ds, W.Enclosed e.2 where
  empty _ := nofun
  append h h' hc := List.forall_mem_append.2 ⟨h hc.1, h' hc.2⟩
  ident _ _ _ := nofun
  expr _ _ _ _ h hc := h hc.1
  stmt x _ a _ h hc := h <| by
    have hc : (a.stmt x.place).closed := hc
    cases hm : x.place with
    | part =>
      rw [hm] at hc
      exact hc
    | list | slot =>
      rw [hm] at hc
      exact hc.1
  declarator kind site target init h hc := by
    have h := h hc.1
    cases target with
    | ident id => exact List.forall_mem_cons.2 ⟨enclosed_init hc.1.2, h⟩
    | _ => exact h
  element kind site target init h hc := by
    have h := h hc.1
    cases target with
    | ident id => exact List.forall_mem_cons.2 ⟨enclosed_init hc.1.2, h⟩
    | _ => exact h
  funcDecl f h hc := by
    refine List.forall_mem_append.2 ⟨fun e he => ?_, h (named_closed hc).1⟩
    obtain ⟨id, -, rfl⟩ := List.mem_map.1 he
    exact ⟨named_closed hc, rfl⟩
  clsDecl c h hc := by
    refine List.forall_mem_append.2 ⟨fun e he => ?_, h (named_closed hc).1⟩
    obtain ⟨id, -, rfl⟩ := List.mem_map.1 he
    exact ⟨named_closed hc, rfl⟩
  property _ _ _ h := h
  hole _ := nofun

/-- The state is sound before a pass. -/
theorem sound_start {L : Ledger} {usage : Usage} {t : State} {target : BindingId} {h0 : info.boundAt? 0 = none}
    (h : L.Suits p (.start p info usage)) (hp : Numbered (p.fold Fold.sites) info)
    (hc : (p.fold (Watch.ofPass (.start p info usage) t target h0).fold).closed) :
    (Watch.ofPass (.start p info usage) t target h0).Sound (.start p info usage) where
  bound _ := rfl
  origin hb := by
    show (info.binding? _).bind _ = _
    rw [show info.binding? _ = _ from hb]
    rfl
  before _ hj := hj
  late := rfl
  dead _ hj hu := absurd hu (mem_ofPass.1 hj).2.2
  named hσ := nomatch hσ
  homes _ hdef := (Program.fold_related (definitions_relates _) p hc _ ((h.definition hp _ _).1 hdef)).home _

/-! ### Sweeping -/

section

variable {t : State}

/-- Nothing has been visited late, so nothing is renewed. -/
theorem Sound.renews (h : W.Sound t) : Removes t.renewal W.fold W.fold fun a b => b.live t.dead = a.live t.dead where
  empty_left := Uses.empty_append
  empty := rfl
  append := congrArg₂ (· + ·)
  ident _ _ := rfl
  hole := rfl
  expr _ _ _ hab := hab
  stmt {x x' a b} _ hab := by
    show (b.stmt x'.place).live _ = (a.stmt x.place).live _
    rw [Uses.stmt_live, Uses.stmt_live, hab]
  property _ hab := hab
  declarator {site _ _ _ _ _ _} _ _ _ _ hab := congrArg (fun n => if site ∈ t.dead then 0 else n) hab
  element _ _ _ hab := hab
  funcDecl {f f' a b} _ hf hab := by
    show (b.named f'.name).live _ = (a.named f.name).live _
    rw [← Func.name_of_head hf]
    exact Uses.named_live_congr f.name hab
  clsDecl {c c' a b} _ hc hab := by
    show (b.named c'.name).live _ = (a.named c.name).live _
    rw [← Class.name_of_head hc]
    exact Uses.named_live_congr c.name hab
  otherFunc hg := by simp [State.renewal, h.late] at hg
  otherClass hd := by simp [State.renewal, h.late] at hd
  dropped _ _ hd := nomatch hd
  gone hr := absurd ⟨fun _ => rfl, fun _ => rfl, fun _ => rfl, rfl⟩ hr
  emptied hr := absurd ⟨fun _ => rfl, fun _ => rfl, fun _ => rfl, rfl⟩ hr

/-- What is dead goes, and nothing else is taken out. -/
theorem sweeps (W : Watch) (t : State) :
    Removes t.buried.removal W.fold (Fold.idents fun _ => true) fun a ids => W.count ids ≤ a.live t.dead where
  empty_left _ := rfl
  empty := Nat.le_refl 0
  append {a ids a' ids'} h h' := by
    show List.countP _ (ids ++ ids') ≤ _ + _
    rw [List.countP_append]
    exact Nat.add_le_add h h'
  ident role id := Nat.le_of_eq (W.live_relates.ident role id)
  hole := Nat.le_refl 0
  expr _ _ _ hab := hab
  stmt {x _ a _} _ hab := hab.trans_eq (congrFun (Uses.stmt_live x.place a).symm t.dead)
  property _ hab := hab
  declarator hs _ _ _ hab := hab.trans_eq (if_neg (State.isDead_eq_false_iff.1 hs)).symm
  element _ _ _ hab := hab
  funcDecl {f f' a b} hn _ hab := hab.trans_eq (Uses.named_alive f.name a (State.alive_name hn)).symm
  clsDecl {c c' a b} hn _ hab := hab.trans_eq (Uses.named_alive c.name a (State.alive_name hn)).symm
  otherFunc hg := nomatch hg
  otherClass hd := nomatch hd
  dropped _ _ _ := Nat.zero_le _
  gone _ _ := Nat.zero_le _
  emptied _ _ := Nat.zero_le _

/-- What is left of a program once it is swept are live uses. -/
theorem Sound.sweep_count (h : W.Sound t) (p : Program) : W.count (t.sweep p).idents ≤ (p.fold W.fold).live t.dead := by
  rw [State.sweep_eq]
  split
  next hempty =>
    rw [List.isEmpty_iff.1 hempty]
    exact Nat.le_of_eq (Program.fold_related W.live_relates p)
  next =>
    have hr : ((p.remove t.renewal).fold W.fold).live t.dead = (p.fold W.fold).live t.dead :=
      Program.remove_related h.renews p
    exact hr ▸ Program.remove_related (W.sweeps t) _

end

end Watch

/-! ### A pass -/

theorem Watch.Fair.gone (h : W.Fair info xs) {a : Sites} (hn : Numbered a info) :
    ∀ σ ∈ W.gone, σ ∈ a.decls.map Prod.fst := by
  intro σ hσ
  obtain ⟨j, hj, ho⟩ := W.mem_gone.1 hσ
  obtain ⟨d, hd⟩ := h.known j hj
  obtain ⟨e, he, rfl, -⟩ := hn.bound j d σ hd ((h.origin hd).symm.trans ho)
  exact List.mem_map_of_mem he

/-- In the end, what is inlined is dead. -/
theorem Watch.Sound.buried {t : State} (h : W.Sound t) (hu : ∀ j ∈ W.inlined, t.Unbound j) (tops : List Site) :
    W.Buried tops t.dead := fun σ _ hg => by
  obtain ⟨j, hj, ho⟩ := W.mem_gone.1 hg
  exact h.dead j hj (hu j hj) σ ho

/-- A pass over an orderly program takes no more references to a binding from its count than uses go, if the binding
stays in its scope. -/
theorem Program.Orderly.account (h : p.Orderly) (hq : p.resolve = (q, info)) (usage : Usage) :
    let s := State.start q info usage
    let r := (Stmt.eliminateList false q.body).run s
    s.Leads r.2 ∧ ∀ i, ¬ r.2.Unbound i →
      let W := Watch.ofPass s r.2 i (Program.resolve_unsited hq)
      W.Sound r.2 ∧
        (Stmt.foldList W.fold r.1).live r.2.dead + s.references i ≤ (q.fold W.fold).live [] + r.2.references i := by
  intro s r
  have hnum := Program.numbered_of_resolve hq
  let L := Ledger.ofPass Tariff.free hnum s r.2
  have hvisit (W : Watch) :
      W.Part L .list (q.fold L.fold, q.fold W.fold) s (Stmt.foldList L.fold r.1, Stmt.foldList W.fold r.1) r.2 := by
    have hvisit := Stmt.eliminateList_visits (W.visits L) false q.body s
    rwa [Stmt.foldList_both, Stmt.foldList_both] at hvisit
  have hclose : L.Closes r.2 := Ledger.ofPass_closes Tariff.free hnum s r.2
  have hsuits : L.Suits q s := ⟨rfl, rfl, fun σ hσ => ((hclose.late σ).1 hσ).2, fun _ => rfl⟩
  -- Where a pass leads to does not depend on the binding that is watched.
  refine ⟨(hvisit (.ofPass s r.2 0 (Program.resolve_unsited hq))).run.leads, fun i hi => ?_⟩
  intro W
  have hvisit := hvisit W
  have hfair : W.Fair info r.2.listed := Watch.ofPass_fair hvisit.run.leads hvisit.run.chosen
  have hclosed : (q.fold W.fold).closed := hfair.closed h hq fun σ hσ => (hvisit.run.listed σ hσ).resolve_left nofun
  have hunbound : ∀ j ∈ W.inlined, r.2.Unbound j := fun j hj => (Watch.mem_ofPass.1 hj).2.1
  have hkept := hvisit.kept
    { ready := hsuits.ready hnum
      bounds := hclose.bounds
      sound := Watch.sound_start hsuits hnum hclosed
      limits := Watch.ofPass_bounds hi
      closed := hclosed
      nodup := (congrArg Prod.fst hq ▸ W.sites_nodup p :)
      calm := fun j hj => .inl (hunbound j hj) } nofun
  refine ⟨hkept.sound, ?_⟩
  have hstart : ((q.fold W.fold).cost []).val [] [] + W.stake ∅ s ≤ (q.fold W.fold).live [] :=
    Watch.funded_start hsuits hnum (hfair.gone hnum)
  have haccount : ((Stmt.foldList W.fold r.1).cost []).val r.2.dead [] + W.stake ∅ r.2 + s.references i ≤
      ((q.fold W.fold).cost []).val [] [] + W.stake ∅ s + r.2.references i := hkept.account ∅ nofun
  have hend : (Stmt.foldList W.fold r.1).live r.2.dead ≤ ((Stmt.foldList W.fold r.1).cost []).val r.2.dead [] :=
    hkept.live_le (hkept.sound.buried hunbound _) (List.Subset.refl _)
  omega

/-- Each binding that is still in its scope counts at least the references to it that a program has. -/
def Info.Covers (info : Info) (p : Program) : Prop :=
  ∀ i b, info.binding? i = some b → info.isBound i b = true →
    (p.idents.countP fun id => info.bindingOf? id = some i) ≤ b.references

/-- After a pass over an orderly program, the counts of the bindings that are still in their scopes cover the references
that are left. -/
theorem Program.Orderly.covers (h : p.Orderly) (hq : p.resolve = (q, info)) (usage : Usage) :
    let r := (Stmt.eliminateList false q.body).run (State.start q info usage)
    r.2.info.Covers (r.2.sweep { body := r.1 }) := by
  intro r i b hb hbound
  let s := State.start q info usage
  obtain ⟨hleads, haccount⟩ := h.account hq usage
  obtain ⟨hsound, haccount⟩ := haccount i fun hu => Bool.false_ne_true ((hu b hb).symm.trans hbound)
  let W := Watch.ofPass s r.2 i (Program.resolve_unsited hq)
  have haccount : (Stmt.foldList W.fold r.1).live r.2.dead + s.references i ≤
      (q.fold W.fold).live [] + r.2.references i :=
    haccount
  -- Before the pass, each reference is counted.
  have hlive : W.count q.idents = (q.fold W.fold).live [] := Program.fold_related W.live_relates q
  have hstart : s.references i = W.count q.idents := by
    obtain ⟨c, n, hc, rfl⟩ := hleads.bindings hb
    have hrefs : c.references = W.count q.idents := h.references hq hc
    rw [← hrefs, State.references, show s.info.binding? i = some c from hc]
    rfl
  have hend : r.2.references i = b.references := by
    rw [State.references, hb]
    rfl
  have hsweep : W.count (r.2.sweep { body := r.1 }).idents ≤ (Stmt.foldList W.fold r.1).live r.2.dead :=
    hsound.sweep_count { body := r.1 }
  have hleft : ((r.2.sweep { body := r.1 }).idents.countP fun id => r.2.info.bindingOf? id = some i) =
      W.count (r.2.sweep { body := r.1 }).idents := List.countP_congr fun id _ => by
    rw [show r.2.info.bindingOf? id = W.bound id.site from hleads.boundAt? id.site]
    exact Iff.rfl
  omega

/-- The program that a pass leaves, with the state in which it ends. -/
def Program.pass? (p : Program) : Option (Program × State) := do
  let (p, info) := p.resolve
  let usage ← p.usage? info
  let (body, s) := (Stmt.eliminateList false p.body).run (State.start p info usage)
  return (s.sweep { body }, s)

theorem Program.eliminateOnce_eq_pass? (p : Program) :
    p.eliminateOnce = p.pass?.map fun r => (r.1, r.2.changes.reverse) := by
  show Option.bind (p.resolve.1.usage? p.resolve.2) _ = Option.map _ (Option.bind (p.resolve.1.usage? p.resolve.2) _)
  cases p.resolve.1.usage? p.resolve.2 <;> rfl

/-- In every pass over what passes leave of a parsed program whose functions are declared in lists and exports, the
counts of references cover the references that are left. -/
theorem Program.counts_cover_references {text : String} {p q r : Program} {rs : List Change}
    (h : parse text = .ok p) (hf : p.funcsListed = true)
    (hpq : Relation.ReflTransGen (fun p q => ∃ rs, p.eliminateOnce = some (q, rs)) p q)
    (hr : q.eliminateOnce = some (r, rs)) :
    ∃ s, q.pass? = some (r, s) ∧ s.info.Covers r := by
  have hq : q.Orderly := by
    clear hr
    induction hpq with
    | refl => exact orderly_of_parse h hf
    | tail _ hstep ih =>
      obtain ⟨rs, hstep⟩ := hstep
      exact ih.eliminateOnce hstep
  rw [eliminateOnce_eq_pass?] at hr
  obtain ⟨⟨r', s⟩, hpass, hr⟩ := Option.map_eq_some_iff.1 hr
  obtain rfl : r' = r := congrArg Prod.fst hr
  refine ⟨s, hpass, ?_⟩
  obtain ⟨usage, -, hpass⟩ := Option.bind_eq_some_iff.1 hpass
  cases hpass
  exact hq.covers rfl usage

theorem Program.counts_cover_references_sample : ∃ p r rs s,
    parse "const a = 1; let b = f(a); \x7b let c = b; g(c, b); \x7d function f(x) \x7b return x + b; \x7d" = .ok p ∧
      p.funcsListed = true ∧ p.eliminateOnce = some (r, rs) ∧ rs.length = 3 ∧ p.pass? = some (r, s) ∧
      s.info.Covers r := by
  generalize hr : Program.parse _ = r
  have hsample : (r.toOption.bind fun p => p.eliminateOnce.map fun r => (p.funcsListed, r.2.length)) =
      some (true, 3) := by
    subst hr
    decide +kernel
  cases r with
  | error faults => cases hsample
  | ok p =>
    obtain ⟨⟨r, rs⟩, honce, hsample⟩ := Option.map_eq_some_iff.1 hsample
    obtain ⟨hf, hchanges⟩ := Prod.ext_iff.1 hsample
    obtain ⟨s, hpass, hcovers⟩ := counts_cover_references hr hf .refl honce
    exact ⟨p, r, rs, s, rfl, hf, honce, hchanges, hpass, hcovers⟩

end Deadwood
