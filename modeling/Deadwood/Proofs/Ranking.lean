import Deadwood.Proofs.Hereditary
import Deadwood.Proofs.Idempotence
import Deadwood.Proofs.Initialization
import Mathlib.Data.Finset.Card

/-!
# Ranks of constants

Constants that are never read too early can be ranked such that the initializer of each consults, outside of
functions, none that does not rank below it.  `Ranking.fold` says so of a piece of syntax, for all of the
declarations in it, and says of the piece itself that what it consults ranks below a given number.
-/

namespace Deadwood

open Elimination

/-! ### Origins -/

namespace Numbered

variable {a : Sites} {info : Info} {site : Site} {j : BindingId} {b : Binding}

/-- A binding that comes from a declaration is that of one of the names declared there. -/
theorem exists_name (hn : Numbered a info) {names : List Site} (he : (site, names) ∈ a.decls)
    (hb : info.binding? j = some b) (ho : b.origin.site? = some site) :
    ∃ x ∈ names, info.decls[x]? = some (some j) := by
  obtain ⟨⟨_, names'⟩, he', rfl, hx⟩ := hn.bound j b site hb ho
  have hnodup : (a.decls.map Prod.fst).Nodup := (List.nodup_append.1 hn.nodup).1
  cases List.inj_on_of_nodup_map hnodup he he' rfl
  exact hx

theorem not_mem_decls (hn : Numbered a info) {names : List Site} (h : site ∈ a.own ++ a.elems) :
    (site, names) ∉ a.decls := by
  intro he
  have hmem : site ∈ a.decls.map Prod.fst := List.mem_map.2 ⟨_, he, rfl⟩
  exact (List.nodup_append.1 hn.nodup).2.2 site hmem site h rfl

/-- No binding comes from an element of a pattern. -/
theorem not_origin (hn : Numbered a info) (h : site ∈ a.elems) (hb : info.binding? j = some b) :
    b.origin.site? ≠ some site := by
  intro ho
  obtain ⟨⟨_, names⟩, he, rfl, -⟩ := hn.bound j b site hb ho
  exact hn.not_mem_decls (List.mem_append_right _ h) he

end Numbered

/-! ### Rankings -/

/-- Numbers for the constants that are never read too early, with the names of the program's function and class
expressions. -/
structure Ranking where
  info : Info
  rank : BindingId → Nat
  own : List Site
  rank_lt : ∀ {j}, info.isOrdered j = true → rank j < info.bindings.size

namespace Ranking

variable (R : Ranking)

/-- All ranks are below. -/
def top : Nat := R.info.bindings.size

/-- The binding always has the value that its origin gives to it. -/
def Gives (origin : Origin) (j : BindingId) : Prop :=
  R.info.isOrdered j = true ∧ ∃ b, R.info.binding? j = some b ∧ b.origin = origin

/-- Says of a number that what is consulted outside of functions ranks below it, and the same of what is
declared and its own rank.  A class expression that is no declared class is known by its name. -/
def fold : Fold (Nat → Prop) where
  empty _ := True
  append P Q n := P n ∧ Q n
  ident role id n := role = .reference → ∀ j, R.info.bindingOf? id = some j → R.info.isOrdered j = true →
    R.rank j < n
  expr e P n :=
    match e with
    | .func _ | .arrow .. | .arrowBlock .. => P R.top
    | .cls c => P n ∧ ∀ id ∈ c.name, id.site ∈ R.own ∨ ∃ j, R.Gives (.cls id.site) j ∧ R.rank j < n
    | _ => P n
  declarator d P n :=
    match d with
    | .mk site (.ident _) _ => P n ∧ ∀ j, R.Gives (.declarator site) j → P (R.rank j)
    | _ => P n
  funcDecl _ P _ := P R.top
  clsDecl c P n := P n ∧ ∀ id ∈ c.name, id.site ∉ R.own ∧ ∀ j, R.Gives (.cls id.site) j → P (R.rank j)

variable {R} {n m : Nat} {P Q : Nat → Prop}

theorem fold_hereditary : R.fold.Hereditary id where
  empty _ := trivial
  append := Iff.rfl
  nothing _ := trivial
  wrapped h := h
  unwrapped h _ := h
  cond := Iff.rfl
  branched h := h
  bare ids c := by
    show Declarator.foldList R.fold _ _ c
    induction ids with
    | nil => trivial
    | cons id ids ih => exact ⟨⟨⟨nofun, trivial⟩, fun j _ => ⟨nofun, trivial⟩⟩, ih⟩
  choice := Iff.rfl
  seq he := ⟨trivial, he, trivial⟩
  not := Iff.rfl
  short := and_iff_left trivial
  keyed he := ⟨trivial, he⟩

/-! ### Parts of the fold -/

theorem expr_head (e : Expr) : R.fold.expr e.head = R.fold.expr e := by
  cases e with
  | cls c =>
    cases c
    rfl
  | _ => rfl

theorem expr_imp (e : Expr) (h : ∀ n, P n → Q n) : R.fold.expr e P n → R.fold.expr e Q n := by
  cases e with
  | func | arrow | arrowBlock => exact h R.top
  | cls c => exact And.imp_left (h n)
  | _ => exact h n

theorem expr_of_head {e e' : Expr} (he : e.head = e'.head) (h : ∀ n, P n → Q n) :
    R.fold.expr e P n → R.fold.expr e' Q n := by
  rw [← R.expr_head e, he, R.expr_head e']
  exact expr_imp e' h

/-- What holds of the parts of an expression holds of them at some number. -/
theorem expr_parts {e : Expr} (h : R.fold.expr e P n) : ∃ m, P m := by
  cases e with
  | cls c => exact ⟨n, h.1⟩
  | _ => exact ⟨_, h⟩

theorem declarator_of_head {site : Site} {target target' : Pattern} {init init' : Option Expr}
    (hh : target.head = target'.head) (h : ∀ n, P n → Q n) :
    R.fold.declarator (.mk site target init) P n → R.fold.declarator (.mk site target' init') Q n := by
  cases target <;> cases target' <;> cases hh
  case ident => exact fun hP => ⟨h n hP.1, fun j hj => h _ (hP.2 j hj)⟩
  all_goals exact h n

theorem declarator_parts {d : Declarator} (h : R.fold.declarator d P n) : P n := by
  match d, h with
  | .mk _ (.ident _) _, h => exact h.1
  | .mk _ .hole _, h | .mk _ (.array ..) _, h | .mk _ (.object ..) _, h => exact h

theorem name_fold (kind : BindingKind) (id : Option Ident) : R.fold.optIdent (.binding kind) id n := by
  cases id with
  | none => trivial
  | some id => exact nofun

/-- It makes no difference how the name of a function is declared. -/
theorem func_kind {kind kind' : BindingKind} {f : Func} (h : f.fold R.fold kind n) : f.fold R.fold kind' n := by
  cases f with
  | mk name params rest body async generator => exact ⟨name_fold kind' name, h.2⟩

theorem class_kind {kind kind' : BindingKind} {c : Class} (h : c.fold R.fold kind n) : c.fold R.fold kind' n := by
  cases c with
  | mk name superclass body decorators => exact ⟨h.1, name_fold kind' name, h.2.2⟩

theorem class_of_head {c c' : Class} (hh : c.head = c'.head) (h : ∀ n, P n → Q n) :
    R.fold.clsDecl c P n → R.fold.clsDecl c' Q n := by
  have hname : c'.name = c.name := by
    have hname := congrArg Class.name hh
    cases c
    cases c'
    exact hname.symm
  refine fun hP => ⟨h n hP.1, fun id hid => ?_⟩
  rw [hname] at hid
  exact ⟨(hP.2 id hid).1, fun j hj => h _ ((hP.2 id hid).2 j hj)⟩

/-! ### What is consulted -/

theorem mono_relates : R.fold.Relates R.fold fun P Q => ∀ {n m}, n ≤ m → P n → Q m where
  empty _ _ := trivial
  append h h' _ _ hnm hPQ := ⟨h hnm hPQ.1, h' hnm hPQ.2⟩
  ident _ _ _ _ hnm h hr j hj hord := Nat.lt_of_lt_of_le (h hr j hj hord) hnm
  expr e P Q _ h n m hnm hP := by
    cases e with
    | func | arrow | arrowBlock => exact h (Nat.le_refl _) hP
    | cls c =>
      refine ⟨h hnm hP.1, fun id hid => (hP.2 id hid).imp_right ?_⟩
      rintro ⟨j, hj, hlt⟩
      exact ⟨j, hj, Nat.lt_of_lt_of_le hlt hnm⟩
    | _ => exact h hnm hP
  stmt _ _ _ _ h := h
  declarator _ _ target _ h n m hnm hP := by
    cases target with
    | ident _ => exact ⟨h hnm hP.1, fun j hj => h (Nat.le_refl _) (hP.2 j hj)⟩
    | _ => exact h hnm hP
  element _ _ target _ h n m hnm hP := by
    cases target with
    | ident _ => exact ⟨h hnm hP.1, fun j hj => h (Nat.le_refl _) (hP.2 j hj)⟩
    | _ => exact h hnm hP
  funcDecl _ h _ _ _ hP := h (Nat.le_refl _) hP
  clsDecl _ h _ _ hnm hP :=
    ⟨h hnm hP.1, fun id hid => ⟨(hP.2 id hid).1, fun j hj => h (Nat.le_refl _) ((hP.2 id hid).2 j hj)⟩⟩
  property _ _ _ h := h
  hole _ _ := trivial

theorem expr_mono {e : Expr} (h : e.fold R.fold n) (hnm : n ≤ m) : e.fold R.fold m :=
  Expr.fold_related mono_relates e hnm h

theorem class_mono {kind : BindingKind} {c : Class} (h : c.fold R.fold kind n) (hnm : n ≤ m) :
    c.fold R.fold kind m :=
  Class.fold_related mono_relates kind c hnm h

/-- What is consulted ranks below. -/
theorem consulted_relates : Fold.consulted.Relates R.fold fun ids P => ∀ n, P n → ∀ id ∈ ids, ∀ j,
    R.info.bindingOf? id = some j → R.info.isOrdered j = true → R.rank j < n where
  empty _ _ := nofun
  append h h' n hPQ := List.forall_mem_append.2 ⟨h n hPQ.1, h' n hPQ.2⟩
  ident role id n h id' hid := by
    cases role with
    | reference =>
      cases List.mem_singleton.1 hid
      exact h rfl
    | _ => cases hid
  expr e ids P _ h n hP := by
    show ∀ id ∈ (if e.isComposed then ids else []), _
    cases e with
    | cls c => exact h n hP.1
    | ident | template | unary | binary | cond | seq | array | object => exact h n hP
    | _ => exact nofun
  stmt _ _ _ _ h := h
  declarator _ _ _ _ h n hP := h n (declarator_parts hP)
  element _ _ _ _ h n hP := h n (declarator_parts hP)
  funcDecl _ _ _ _ := nofun
  clsDecl _ h n hP := h n hP.1
  property _ _ _ h := h
  hole _ _ := nofun

theorem consulted_lt {e : Expr} (h : e.fold R.fold n) {id : Ident} (hid : id ∈ e.consulted) {j : BindingId}
    (hj : R.info.bindingOf? id = some j) (hord : R.info.isOrdered j = true) : R.rank j < n :=
  Expr.fold_related consulted_relates e n h id hid j hj hord

/-! ### Definitions -/

/-- What a declaration at a site defines is ranked. -/
def Placed (R : Ranking) (site : Site) : Definition → Prop
  | .variable init => ∀ e ∈ init, ∀ j, R.Gives (.declarator site) j → e.fold R.fold (R.rank j)
  | .func f => f.fold R.fold .func R.top
  | .cls c => site ∉ R.own ∧ (∀ id ∈ c.name, id.site = site) ∧
      ∀ j, R.Gives (.cls site) j → c.fold R.fold .cls (R.rank j)

theorem declarator_placed {site : Site} {target : Pattern} {init : Option Expr} {kind : BindingKind}
    {ds : List (Site × Definition)} (hds : ∀ x ∈ ds, R.Placed x.1 x.2)
    (h : R.fold.declarator (.mk site target init)
      (R.fold.append (target.fold R.fold kind) (Expr.foldOpt R.fold init)) n) :
    ∀ x ∈ declarations.declarator (.mk site target init) ds, R.Placed x.1 x.2 := by
  cases target with
  | ident id =>
    refine List.forall_mem_cons.2 ⟨?_, hds⟩
    rintro e rfl j hj
    exact (h.2 j hj).2
  | _ => exact hds

theorem declarations_relates : declarations.Relates R.fold fun ds P => ∀ n, P n → ∀ x ∈ ds, R.Placed x.1 x.2 where
  empty _ _ := nofun
  append h h' n hPQ := List.forall_mem_append.2 ⟨h n hPQ.1, h' n hPQ.2⟩
  ident _ _ _ _ := nofun
  expr _ _ _ _ h n hP := by
    obtain ⟨m, hP⟩ := expr_parts hP
    exact h m hP
  stmt _ _ _ _ h := h
  declarator _ _ _ _ h n hP := declarator_placed (h n (declarator_parts hP)) hP
  element _ _ _ _ h n hP := declarator_placed (h n (declarator_parts hP)) hP
  funcDecl f h n hP := by
    refine List.forall_mem_append.2 ⟨fun x hx => ?_, h _ hP⟩
    obtain ⟨id, -, rfl⟩ := List.mem_map.1 hx
    exact hP
  clsDecl c h n hP := by
    refine List.forall_mem_append.2 ⟨fun x hx => ?_, h n hP.1⟩
    obtain ⟨id, hid, rfl⟩ := List.mem_map.1 hx
    have hid := Option.mem_toList.1 hid
    obtain ⟨hown, hgives⟩ := hP.2 id hid
    refine ⟨hown, fun id' hid' => ?_, hgives⟩
    cases hid.symm.trans hid'
    rfl
  property _ _ _ h := h
  hole _ _ := nofun

end Ranking

/-! ### Ranks by the order of declarations -/

namespace Info

variable {info : Info} {L M K : List Site} {j : BindingId} {n m : Nat} {x : Site}

/-- The place of a binding's declaration in a list of sites. -/
def place (info : Info) (L : List Site) (j : BindingId) : Nat := L.findIdx fun x => info.decls[x]? = some (some j)

/-- The number of the bindings declared at the first `n` of the sites. -/
def early (info : Info) (L : List Site) (n : Nat) : Nat :=
  ((Finset.range info.bindings.size).filter fun j => info.place L j < n).card

theorem Declared.place_lt (h : info.Declared M j) (hM : M <+: L) : info.place L j < M.length := by
  obtain ⟨x, hx, hj⟩ := h
  obtain ⟨N, rfl⟩ := hM
  have hlt : (M.findIdx fun x => info.decls[x]? = some (some j)) < M.length :=
    List.findIdx_lt_length_of_exists ⟨x, hx, decide_eq_true hj⟩
  rw [place, List.findIdx_append, if_pos hlt]
  exact hlt

theorem length_le_place (hL : L.Nodup) (hK : K ++ [x] <+: L)
    (honce : ∀ y, info.decls[y]? = some (some j) → y = x) : K.length ≤ info.place L j := by
  obtain ⟨N, rfl⟩ := hK
  rw [List.append_assoc] at hL ⊢
  have hge : ¬ (K.findIdx fun x => info.decls[x]? = some (some j)) < K.length := by
    intro hlt
    obtain ⟨y, hy, hj⟩ := List.findIdx_lt_length.1 hlt
    obtain rfl := honce y (of_decide_eq_true hj)
    exact (List.nodup_append.1 hL).2.2 y hy y (List.mem_append_left _ List.mem_cons_self) rfl
  rw [place, List.findIdx_append, if_neg hge]
  exact Nat.le_add_left ..

theorem early_mono (h : n ≤ m) : info.early L n ≤ info.early L m := by
  refine Finset.card_le_card fun j hj => ?_
  rw [Finset.mem_filter] at hj ⊢
  exact ⟨hj.1, Nat.lt_of_lt_of_le hj.2 h⟩

theorem early_le_size : info.early L n ≤ info.bindings.size :=
  (Finset.card_filter_le ..).trans (Nat.le_of_eq (Finset.card_range _))

theorem early_place_lt (hj : info.isOrdered j = true) (h : info.place L j < n) :
    info.early L (info.place L j) < info.early L n := by
  obtain ⟨b, hb, -⟩ := isOrdered_iff.1 hj
  have hlt : j < info.bindings.size := (Array.getElem?_eq_some_iff.1 hb).1
  refine Finset.card_lt_card (Finset.ssubset_iff_subset_ne.2 ⟨fun k hk => ?_, fun he => ?_⟩)
  · rw [Finset.mem_filter] at hk ⊢
    exact ⟨hk.1, hk.2.trans h⟩
  · have hmem : j ∈ (Finset.range info.bindings.size).filter fun k => info.place L k < n :=
      Finset.mem_filter.2 ⟨Finset.mem_range.2 hlt, h⟩
    rw [← he, Finset.mem_filter] at hmem
    exact Nat.lt_irrefl _ hmem.2

/-- The ranking by the order of a list of sites. -/
def ranking (info : Info) (L own : List Site) : Ranking where
  info
  rank j := info.early L (info.place L j)
  own
  rank_lt hj := Nat.lt_of_lt_of_le (early_place_lt hj (Nat.lt_succ_self _)) early_le_size

end Info

/-- What is known of a part of the sites of a program. -/
structure Sites.Within (a b : Sites) : Prop where
  decls : a.decls ⊆ b.decls
  own : a.own ⊆ b.own
  elems : a.elems ⊆ b.elems

namespace Sites.Within

variable {a a' b : Sites}

theorem left (h : (a.append a').Within b) : a.Within b :=
  ⟨fun _ hx => h.decls (List.mem_append_left _ hx), fun _ hx => h.own (List.mem_append_left _ hx),
    fun _ hx => h.elems (List.mem_append_left _ hx)⟩

theorem right (h : (a.append a').Within b) : a'.Within b :=
  ⟨fun _ hx => h.decls (List.mem_append_right _ hx), fun _ hx => h.own (List.mem_append_right _ hx),
    fun _ hx => h.elems (List.mem_append_right _ hx)⟩

theorem declareName {name : Option Ident} (h : (a.declareName name).Within b) : a.Within b := by
  cases name with
  | none => exact ⟨h.decls, h.own, h.elems⟩
  | some id => exact ⟨fun _ hx => h.decls (List.mem_cons_of_mem _ hx), h.own, h.elems⟩

theorem name {id : Ident} (h : (a.declareName (some id)).Within b) : (id.site, [id.site]) ∈ b.decls :=
  h.decls List.mem_cons_self

end Sites.Within

theorem Fold.sites_initializer (init : Option Expr) : (Expr.foldOpt Fold.sites init).binders = [] := by
  cases init with
  | none => rfl
  | some e => cases e <;> rfl

theorem Class.own_site {c : Class} {id : Ident} (h : id ∈ c.name) : id.site ∈ (c.fold Fold.sites .own).own := by
  cases c with
  | mk name superclass body decorators =>
    cases h
    exact List.mem_append_right _ (List.mem_append_left _ List.mem_cons_self)

section

variable {a : Sites} {info : Info} {L : List Site}

/-- What has been dated is ranked. -/
theorem Info.ranking_relates (hn : Numbered a info) (hL : L.Nodup)
    (honce : ∀ {j : BindingId} {x y : Site}, info.isOrdered j = true → info.decls[x]? = some (some j) →
      info.decls[y]? = some (some j) → x = y) :
    (Fold.sites.both Fold.dated).Relates (info.ranking L a.own).fold fun b P => b.1.Within a →
      ∀ M n, M <+: L → b.2 info M → info.early L M.length ≤ n → P n := by
  -- What comes before a name ranks below what is declared by it.
  have hrank {K M : List Site} {x site : Site} {j : BindingId} {origin : Origin} (hM : M <+: L)
      (hK : K ++ [x] <+: M) (ho : origin.site? = some site) (hx : (site, [x]) ∈ a.decls)
      (hj : (info.ranking L a.own).Gives origin j) :
      info.early L K.length ≤ (info.ranking L a.own).rank j := by
    obtain ⟨hord, b, hb, rfl⟩ := hj
    obtain ⟨y, hy, hdecl⟩ := hn.exists_name hx hb ho
    cases List.mem_singleton.1 hy
    exact info.early_mono (info.length_le_place hL (hK.trans hM) fun y hy => honce hord hy hdecl)
  have hshorter {K M : List Site} {x : Site} (hK : K ++ [x] <+: M) : info.early L K.length ≤ info.early L M.length :=
    info.early_mono (((List.prefix_append ..).trans hK).length_le)
  exact {
    empty := fun _ _ _ _ _ _ => trivial
    append := fun h h' hw M n hM hP hn =>
      ⟨h hw.left M n hM hP.1 hn, h' hw.right M n hM hP.2 hn⟩
    ident := fun role id _ M n hM hP hn hr j hj hord =>
      Nat.lt_of_lt_of_le (info.early_place_lt hord ((hP hr j hj hord).place_lt hM)) hn
    expr := fun e b P hc h hw M n hM hP hle => by
      have hb : b.1.Within a := ⟨hw.decls, hw.own, hw.elems⟩
      clear hw
      cases e with
      | func | arrow | arrowBlock => exact h hb M _ hM hP info.early_le_size
      | cls c =>
        have hown : (c.fold (Fold.sites.both Fold.dated) .own).1 = c.fold Fold.sites .own :=
          Class.fold_related (Fold.both_fst ..) .own c
        refine ⟨h hb M n hM hP hle, fun id hid => .inl (hb.own ?_)⟩
        rw [hc c rfl, hown]
        exact Class.own_site hid
      | _ => exact h hb M n hM hP hle
    stmt := fun _ _ _ _ h => h
    declarator := fun kind site target init h hw M n hM hP hle => by
      have hw' := Sites.Within.mk (fun _ hx => hw.decls (List.mem_cons_of_mem _ hx)) hw.own hw.elems
      cases target with
      | ident id =>
        obtain ⟨K, hP, hK⟩ := hP
        have hKM : K <+: L := (List.prefix_append ..).trans (hK.trans hM)
        refine ⟨h hw' K n hKM hP ((hshorter hK).trans hle), fun j hj => h hw' K _ hKM hP ?_⟩
        refine hrank hM hK rfl (hw.decls (List.mem_cons.2 (.inl ?_))) hj
        have hname : ((Fold.sites.both Fold.dated).ident (.binding kind) id).1.binders = [id.site] := by
          cases kind <;> rfl
        have hinit : (Expr.foldOpt (Fold.sites.both Fold.dated) init).1.binders = [] := by
          rw [Expr.foldOpt_related (Fold.both_fst ..) init, Fold.sites_initializer]
        show (site, [id.site]) = (site, _ ++ _)
        rw [hinit, List.append_nil]
        exact congrArg (site, ·) hname.symm
      | _ => exact h hw' M n hM hP hle
    element := fun kind site target init h hw M n hM hP hle => by
      have hw' : ((Fold.sites.both Fold.dated).append (target.fold (Fold.sites.both Fold.dated) kind)
          (Expr.foldOpt (Fold.sites.both Fold.dated) init)).1.Within a :=
        ⟨hw.decls, hw.own, fun _ hx => hw.elems (List.mem_cons_of_mem _ hx)⟩
      cases target with
      | ident id =>
        refine ⟨h hw' M n hM hP hle, fun j hj => ?_⟩
        obtain ⟨-, b, hb, ho⟩ := hj
        exact absurd (by rw [ho]; rfl) (hn.not_origin (hw.elems List.mem_cons_self) hb)
      | _ => exact h hw' M n hM hP hle
    funcDecl := fun f h hw M n hM hP _ => h hw.declareName M _ hM hP info.early_le_size
    clsDecl := fun c h hw M n hM hP hle => by
      have hw : ((c.fold (Fold.sites.both Fold.dated) .cls).1.declareName c.name).Within a := hw
      have hP : Fold.dated.clsDecl c (c.fold (Fold.sites.both Fold.dated) .cls).2 info M := hP
      simp only [Fold.dated] at hP
      cases hname : c.name with
      | none =>
        rw [hname] at hP
        exact ⟨h hw.declareName M n hM hP hle, by simp [hname]⟩
      | some id =>
        rw [hname] at hP hw
        obtain ⟨K, hP, hK⟩ := hP
        have hKL : K <+: L := (List.prefix_append ..).trans (hK.trans hM)
        refine ⟨h hw.declareName K n hKL hP ((hshorter hK).trans hle), fun id' hid => ?_⟩
        cases hname.symm.trans hid
        refine ⟨fun hown => hn.not_mem_decls (List.mem_append_left _ hown) hw.name, fun j hj => ?_⟩
        exact h hw.declareName K _ hKL hP (hrank hM hK rfl hw.name hj)
    property := fun _ _ _ h => h
    hole := fun _ _ _ _ _ _ => trivial }

end

end Deadwood
