import Deadwood.Proofs.Duplication
import Deadwood.Proofs.Mentions

/-!
# Counts of references

Resolution counts the references of every binding while it binds them, each at a site of its own.  So in the
end the count is the number of mentions of the binding, which are found by their sites.
-/

namespace Deadwood

/-- The sites of the identifiers of a piece of syntax. -/
structure Stamps where
  /-- The sites of identifiers that resolution numbers. -/
  live : List Site
  /-- The sites of those it leaves alone: labels, the names of properties, and what other modules declare. -/
  idle : List Site

def Stamps.append (a b : Stamps) : Stamps := ⟨a.live ++ b.live, a.idle ++ b.idle⟩

/-- Collects the sites of identifiers. -/
def Fold.stamps : Fold Stamps where
  empty := ⟨[], []⟩
  append := .append
  ident role id :=
    match role with
    | .label | .property => ⟨[], [id.site]⟩
    | _ => ⟨[id.site], []⟩
  stmt t a := if t.isForeign then ⟨[], a.live ++ a.idle⟩ else a

theorem Stmt.isForeign_form (t : Stmt) : t.form.isForeign = t.isForeign := by
  cases t with
  | exportNames specs source => cases source <;> rfl
  | _ => rfl

/-- Numbers at other identifiers than those of foreign exports count as they are. -/
theorem Fold.stamps_stmt {t t' : Stmt} (ht : t.form = t'.form) (hf : t.isForeign = false) (a : Stamps) :
    Fold.stamps.stmt t a = a ∧ Fold.stamps.stmt t' a = a := by
  have hf' : t'.isForeign = false := by rw [← t'.isForeign_form, ← ht, t.isForeign_form, hf]
  simp only [Fold.stamps, hf, hf', Bool.false_eq_true, if_false, and_self]

/-! ### Numbering -/

namespace Hoist

/-- No reference is counted yet. -/
def State.Unread (s : State) : Prop := ∀ n ∈ s.bindings.map Binding.references, n = 0

theorem State.Unread.congr {s t : State} (h : s.Unread)
    (ht : t.bindings.map Binding.references = s.bindings.map Binding.references) : t.Unread := by
  rwa [State.Unread, ht]

theorem declare_unread (inHead : Bool) (id : Ident) (kind : BindingKind) (origin : Site → Origin) {s : State}
    (h : s.Unread) : (declare inHead id kind origin s).2.Unread := by
  simp only [declare, run_bind, run_get]
  cases ((fresh s).2.scope? ((fresh s).2.holder kind)).bind (·.binding? id.name) with
  | some b =>
    refine h.congr ?_
    simp only [run_bind, run_set, run_pure]
    exact map_modify_eq _ _ _ fun _ => rfl
  | none =>
    intro n hn
    simp only [run_bind, run_set, run_pure, Array.map_push] at hn
    rcases Array.mem_push.1 hn with hn | rfl
    · exact h n hn
    · rfl

theorem exportDeclared_unread (ids : List Ident) {s : State} (h : s.Unread) : (exportDeclared ids s).2.Unread := by
  show (ids.foldl _ s).Unread
  induction ids generalizing s with
  | nil => exact h
  | cons id ids ih =>
    refine ih ?_
    dsimp only
    split
    · refine h.congr ?_
      dsimp only
      exact map_modify_eq _ _ _ fun _ => rfl
    · exact h

/-- What becomes of a piece of syntax between `s` and `t`. -/
structure Stamping (a b : Stamps) (s t : State) : Prop where
  idle : b.idle = a.idle
  spans : Spans b.live s t
  unread : s.Unread → t.Unread

namespace Stamping

variable {a b a' b' : Stamps} {s t u : State}

theorem still {xs : List Site} (h : s.decls.size ≤ t.decls.size) (hs : s.Unread → t.Unread) :
    Stamping ⟨[], xs⟩ ⟨[], xs⟩ s t :=
  ⟨rfl, .nil h, hs⟩

theorem single {x y : Site} (hx : x = s.decls.size) (hs : t.decls.size = s.decls.size + 1) (h : s.Unread → t.Unread) :
    Stamping ⟨[y], []⟩ ⟨[x], []⟩ s t :=
  ⟨rfl, .single hx hs, h⟩

theorem append (h : Stamping a b s t) (h' : Stamping a' b' t u) : Stamping (a.append a') (b.append b') s u :=
  ⟨congrArg₂ (· ++ ·) h.idle h'.idle, h.spans.append h'.spans, fun hs => h'.unread (h.unread hs)⟩

theorem swap (h : Stamping a' b' s t) (h' : Stamping a b t u) : Stamping (a.append a') (b.append b') s u :=
  ⟨congrArg₂ (· ++ ·) h'.idle h.idle, h.spans.swap h'.spans, fun hs => h'.unread (h.unread hs)⟩

theorem congr {s' t' : State} (h : Stamping a b s t) (hs : s'.decls.size = s.decls.size)
    (ht : t'.decls.size = t.decls.size) (hread : s'.Unread → s.Unread) (hread' : t.Unread → t'.Unread) :
    Stamping a b s' t' :=
  ⟨h.idle, h.spans.congr hs ht, fun h' => hread' (h.unread (hread h'))⟩

end Stamping

theorem fresh_stamping {a b : Stamps} {s t : State} (h : Stamping a b (fresh s).2 t) : Stamping a b s t :=
  ⟨h.idle, (Spans.nil (fresh_le s)).append h.spans, fun hs => h.unread hs⟩

theorem declare_stamping (inHead : Bool) (id : Ident) (kind : BindingKind) (origin : Site → Origin) (s : State) :
    Stamping (Fold.stamps.ident (.binding kind) id)
      (Fold.stamps.ident (.binding kind) (declare inHead id kind origin s).1) s (declare inHead id kind origin s).2 :=
  .single (declare_site ..) (declare_decls ..) fun h => declare_unread inHead id kind origin h

/-- Numbering leaves the sites of some identifiers alone, and gives every other one a site of its own. -/
theorem stamping_walks : Walks visitor Fold.stamps Fold.stamps fun _ a s b t => Stamping a b s t where
  empty := .still (Nat.le_refl _) id
  append h h' := h.append h'
  swap h h' := h.swap h'
  assoc h := by simpa only [Fold.stamps, Stamps.append, List.append_assoc] using h
  weaken _ h := h
  literal _ h := h
  hole := .still (Nat.le_refl _) id
  label _ := .still (Nat.le_refl _) id
  propertyName _ := .still (Nat.le_refl _) id
  refer w id s := .single rfl (fresh_size s) fun h => h
  declare inHead id kind origin s _ := declare_stamping ..
  exportName _ s := .single rfl (fresh_size s) fun h => h
  exportDeclared ids h := h.congr rfl (exportDeclared_decls ids _) (fun h => h) (exportDeclared_unread ids)
  contain _ h := h.congr rfl rfl (fun h => h) fun h => h
  called _ h := h
  inScope _ act k kind opener h s := (h (s.entering kind opener)).congr rfl rfl (fun h => h) fun h => h
  straddle act k l kind opener h s hb := by
    obtain ⟨t, ha, hc⟩ := h (s.entering kind opener)
    have hac : Stamping _ _ s (visitor.inScope kind opener act s).2 :=
      (ha.append hc).congr rfl rfl (fun h => h) fun h => h
    refine ⟨?_, hb.spans.join hac.spans (List.perm_append_comm_assoc ..), fun h => hac.unread (hb.unread h)⟩
    exact congrArg₂ (· ++ ·) ha.idle (congrArg₂ (· ++ ·) hb.idle hc.idle)
  scope_map f act _ _ := rfl
  expr _ h := h
  stmt ht hf h := by rwa [(Fold.stamps_stmt ht hf _).1, (Fold.stamps_stmt ht hf _).2]
  foreign specs source s := .still (Nat.le_refl _) id
  property _ h := h
  element _ _ h := fresh_stamping h
  declarator _ _ h h' := fresh_stamping (h.swap h')
  func _ _ h := h
  funcNamed inHead container id f f' a b s t hf hf' h :=
    ((declare_stamping inHead id .func .func (visitor.contain container s).2).append h).congr rfl rfl (fun h => h)
      fun h => h
  cls _ _ _ h h' := h.append h'
  clsNamed inHead container id c c' a b a' b' s t u _ hc hc' h h' := by
    have hd := declare_stamping inHead id .cls .cls (visitor.contain container t).2
    exact h.append (h'.swap (hd.congr rfl rfl (fun h => h) fun h => h))

end Hoist

/-! ### Counting -/

/-- The binding that is bound at a site. -/
def Info.boundAt? (info : Info) (x : Site) : Option BindingId := info.refs[x]?.join.map Prod.fst

/-- The count of references of a binding. -/
def Info.count? (info : Info) (b : BindingId) : Option Nat := info.bindings[b]?.map Binding.references

namespace Resolve

/-- From one stage to the next, references are bound at some of the given sites, and counted. -/
structure Binds (xs : List Site) (info info' : Info) : Prop where
  frame : ∀ x ∉ xs, info'.refs[x]? = info.refs[x]?
  counts : ∀ b, info'.count? b = (info.count? b).map (· + xs.countP fun x => info'.boundAt? x = some b)

/-- The same where nothing is bound at these sites to begin with, and none of them is there twice. -/
def Counted (xs : List Site) (info info' : Info) : Prop :=
  xs.Nodup → (∀ x ∈ xs, info.refs[x]? = some none) → Binds xs info info'

/-- The table of references and the counts stay the same. -/
structure Still (info info' : Info) : Prop where
  refs : info'.refs = info.refs
  counts : info'.bindings.map Binding.references = info.bindings.map Binding.references

variable {xs ys zs : List Site} {info info' info'' : Info}

theorem Still.refl (info : Info) : Still info info := ⟨rfl, rfl⟩

theorem Still.count? (h : Still info info') (b : BindingId) : info'.count? b = info.count? b := by
  have hb := congrArg (·[b]?) h.counts
  simp only [Array.getElem?_map] at hb
  exact hb

theorem Counted.nil (h : Still info info') : Counted [] info info' := by
  refine fun _ _ => ⟨fun x _ => by rw [h.refs], fun b => ?_⟩
  rw [h.count? b]
  cases info.count? b <;> rfl

/-- Nothing is bound at the sites of names that are declared. -/
theorem Counted.unbound {x : Site} (h : Still info info') : Counted [x] info info' := by
  intro _ hfree
  refine ⟨fun x _ => by rw [h.refs], fun b => ?_⟩
  have hx : info'.boundAt? x = none := by
    rw [Info.boundAt?, h.refs, hfree x (List.mem_singleton_self x)]
    rfl
  rw [h.count? b]
  cases info.count? b with
  | none => rfl
  | some n => simp [hx]

theorem Counted.join (h : Counted xs info info') (h' : Counted ys info' info'') (hz : zs.Perm (xs ++ ys)) :
    Counted zs info info'' := by
  intro hnodup hfree
  obtain ⟨hx, hy, hxy⟩ := List.nodup_append.1 (hz.nodup_iff.1 hnodup)
  have hb := h hx fun x hx => hfree x (hz.mem_iff.2 (List.mem_append_left _ hx))
  have hb' := h' hy fun y hy => by
    rw [hb.frame y fun hx => hxy y hx y hy rfl]
    exact hfree y (hz.mem_iff.2 (List.mem_append_right _ hy))
  refine ⟨fun x hx => ?_, fun b => ?_⟩
  · have hx := mt hz.mem_iff.2 hx
    rw [List.mem_append, not_or] at hx
    rw [hb'.frame x hx.2, hb.frame x hx.1]
  · -- What is bound in the first piece stays bound in the second.
    have hkeep : (xs.countP fun x => info'.boundAt? x = some b) = xs.countP fun x => info''.boundAt? x = some b := by
      refine List.countP_congr fun x hx => ?_
      rw [Info.boundAt?, Info.boundAt?, hb'.frame x fun hy => hxy x hx x hy rfl]
    rw [hb'.counts b, hb.counts b, Option.map_map, hz.countP_eq, List.countP_append, hkeep]
    cases info.count? b with
    | none => rfl
    | some n => exact congrArg some (Nat.add_assoc ..)

theorem Counted.append (h : Counted xs info info') (h' : Counted ys info' info'') : Counted (xs ++ ys) info info'' :=
  h.join h' (.refl _)

theorem Counted.swap (h : Counted ys info info') (h' : Counted xs info' info'') : Counted (xs ++ ys) info info'' :=
  h.join h' List.perm_append_comm

theorem Counted.after (h : Counted xs info info') (h' : Still info' info'') : Counted xs info info'' := by
  have hnil := h.append (.nil h')
  rwa [List.append_nil] at hnil

theorem modify_counts (info : Info) (b : BindingId) {f : Binding → Binding}
    (h : ∀ b, (f b).references = b.references) :
    (info.modifyBinding b f).bindings.map Binding.references = info.bindings.map Binding.references :=
  map_modify_eq _ _ _ h

theorem declare_counted (id : Ident) (s : State) : Counted [id.site] s.info (declare id s).2.info := by
  simp only [declare, run_bind, run_get]
  cases s.info.declaration? id with
  | none => exact .unbound (.refl s.info)
  | some b =>
    refine .unbound ⟨rfl, modify_counts s.info b ?_⟩
    exact fun _ => rfl

theorem refer_counted (writing : Bool) (id : Ident) (s : State) :
    Counted [id.site] s.info (refer writing id s).2.info := by
  simp only [refer, run_bind, run_get]
  cases s.info.lookupIn s.path id.name with
  | none => exact .unbound (.refl s.info)
  | some b =>
    intro _ hfree
    have hsize : id.site < s.info.refs.size :=
      (Array.getElem?_eq_some_iff.1 (hfree id.site (List.mem_singleton_self _))).1
    refine ⟨fun x hx => ?_, fun c => ?_⟩
    · have hne : id.site ≠ x := fun h => hx (List.mem_singleton.2 h.symm)
      exact Array.getElem?_setIfInBounds_ne hne
    · have hbound : (s.info.refs.setIfInBounds id.site (some (b, s.path.head?.getD 0)))[id.site]?.join.map Prod.fst =
          some b := by
        rw [Array.getElem?_setIfInBounds]
        simp [hsize]
      rw [List.countP_singleton]
      show ((s.info.bindings.modify b _)[c]?).map Binding.references = (s.info.count? c).map
        (· + if decide (((s.info.refs.setIfInBounds id.site _)[id.site]?).join.map Prod.fst = some c) = true then 1 else 0)
      rw [hbound, Array.getElem?_modify, Info.count?]
      by_cases hc : b = c
      · subst hc
        cases s.info.bindings[b]? <;> simp
      · cases s.info.bindings[c]? <;> simp [hc]

theorem exportName_counted (id : Ident) (s : State) : Counted [id.site] s.info (exportName id s).2.info := by
  refine (refer_counted false id s).after ?_
  simp only [exportName, run_bind, run_pure]
  generalize refer false id s = r
  simp only [modify, modifyGet, MonadStateOf.modifyGet, StateT.modifyGet]
  split
  · next b _ => exact ⟨rfl, modify_counts r.2.info b fun _ => rfl⟩
  · exact .refl _

theorem called_still (id : Ident) (s : State) : Still s.info (called id s).2.info := by
  have hscopes (info : Info) (path : List Mark) :
      let info' := path.foldl (fun info m => info.modifyScope m fun sc => { sc with hasEval := true }) info
      info'.refs = info.refs ∧ info'.bindings = info.bindings := by
    induction path generalizing info with
    | nil => exact ⟨rfl, rfl⟩
    | cons m path ih =>
      obtain ⟨hr, hb⟩ := ih (info.modifyScope m fun sc => { sc with hasEval := true })
      have hm : (info.modifyScope m fun sc => { sc with hasEval := true }).refs = info.refs ∧
          (info.modifyScope m fun sc => { sc with hasEval := true }).bindings = info.bindings := by
        unfold Info.modifyScope
        split <;> exact ⟨rfl, rfl⟩
      exact ⟨hr.trans hm.1, hb.trans hm.2⟩
  show Still s.info (if id.name = "eval" ∧ id.mark = 0 then _ else s).info
  split
  · exact ⟨(hscopes s.info s.path).1, congrArg (Array.map Binding.references) (hscopes s.info s.path).2⟩
  · exact .refl s.info

theorem exportName_site (id : Ident) (s : State) : (exportName id s).1.site = id.site := refer_site false id s

/-- Binding the references leaves the sites alone and counts what it binds. -/
theorem counted_walks : Walks visitor Fold.stamps Fold.stamps fun _ a s b t => a = b ∧ Counted a.live s.info t.info where
  empty := ⟨rfl, .nil (.refl _)⟩
  append h h' := ⟨congrArg₂ _ h.1 h'.1, h.2.append h'.2⟩
  swap h h' := ⟨congrArg₂ _ h'.1 h.1, h.2.swap h'.2⟩
  assoc h := by simpa only [Fold.stamps, Stamps.append, List.append_assoc] using h
  weaken _ h := h
  literal _ h := h
  hole := ⟨rfl, .nil (.refl _)⟩
  label _ := ⟨rfl, .nil (.refl _)⟩
  propertyName _ := ⟨rfl, .nil (.refl _)⟩
  refer w id s := ⟨congrArg (fun x => Stamps.mk [x] []) (refer_site w id s).symm, refer_counted w id s⟩
  declare inHead id kind origin s _ :=
    ⟨congrArg (fun x => Stamps.mk [x] []) (declare_keeps id s).1.symm, declare_counted id s⟩
  exportName id s := ⟨congrArg (fun x => Stamps.mk [x] []) (exportName_site id s).symm, exportName_counted id s⟩
  exportDeclared _ h := h
  contain _ h := h
  called id h := ⟨h.1, h.2.after (called_still id _)⟩
  inScope _ act k kind opener h s := h { s with entered := s.entered + 1, path := (s.entered + 1) :: s.path }
  straddle act k l kind opener h s hb := by
    obtain ⟨t, ha, hc⟩ := h { s with entered := s.entered + 1, path := (s.entered + 1) :: s.path }
    refine ⟨congrArg₂ _ ha.1 (congrArg₂ _ hb.1 hc.1), hb.2.join (ha.2.append hc.2) ?_⟩
    exact List.perm_append_comm_assoc ..
  scope_map f act _ _ := rfl
  expr _ h := h
  stmt ht hf h := by rwa [(Fold.stamps_stmt ht hf _).1, (Fold.stamps_stmt ht hf _).2]
  foreign _ _ _ := ⟨rfl, .nil (.refl _)⟩
  property _ h := h
  element _ _ h := h
  declarator _ _ h h' := ⟨congrArg₂ Stamps.append h'.1 h.1, h.2.swap h'.2⟩
  func _ _ h := ⟨congrArg _ h.1, h.2⟩
  funcNamed inHead container id f f' a b s t _ _ h :=
    ⟨congrArg₂ Stamps.append (congrArg (fun x => Stamps.mk [x] []) (declare_keeps id s).1.symm) h.1,
      (declare_counted id s).append h.2⟩
  cls _ _ _ h h' := ⟨congrArg₂ Stamps.append h.1 (congrArg _ h'.1), h.2.append h'.2⟩
  clsNamed inHead container id c c' a b a' b' s t u _ _ _ h h' :=
    ⟨congrArg₂ Stamps.append h.1
      (congrArg₂ Stamps.append (congrArg (fun x => Stamps.mk [x] []) (declare_keeps id t).1.symm) h'.1),
      h.2.append (h'.2.swap (declare_counted id t))⟩

end Resolve

/-! ### Resolved programs -/

/-- The mentions of a binding are found at the sites where it is bound, if none is bound at the others. -/
def Found (info : Info) (ms : List Mention) (a : Stamps) : Prop :=
  (∀ x ∈ a.idle, info.boundAt? x = none) →
    ∀ b, (ms.countP fun m => m.target = b) = a.live.countP fun x => info.boundAt? x = some b

theorem Found.within {info : Info} {ms : List Mention} {a : Stamps} (h : Found info ms a) (b : Option BindingId) :
    Found info (ms.map (Mention.within b)) a := by
  intro hidle c
  rw [List.countP_map]
  exact h hidle c

theorem found_ident {info : Info} (id : Ident) (b : BindingId) :
    (((info.bindingOf? id).toList.map fun c => Mention.mk c none).countP fun m => m.target = b) =
      [id.site].countP fun x => info.boundAt? x = some b := by
  rw [show info.bindingOf? id = info.boundAt? id.site from rfl, List.countP_singleton]
  cases info.boundAt? id.site with
  | none => rfl
  | some c => simp [List.countP_singleton]

theorem found_relates (info : Info) : (Fold.mentions info).Relates Fold.stamps (Found info) where
  empty _ _ := rfl
  append {ms a ms' a'} h h' hidle b := by
    obtain ⟨hx, hx'⟩ := List.forall_mem_append.1 hidle
    show (ms ++ ms').countP _ = (a.live ++ a'.live).countP _
    rw [List.countP_append, List.countP_append, h hx b, h' hx' b]
  ident role id hidle b := by
    have hnone (h : info.boundAt? id.site = none) : (Fold.mentions info).ident role id = [] := by
      simp only [Fold.mentions, show info.bindingOf? id = info.boundAt? id.site from rfl, h]
      rfl
    cases role with
    | label | property =>
      rw [hnone (hidle id.site (List.mem_singleton_self _))]
      rfl
    | reference | binding | exported => exact found_ident id b
  expr _ _ _ _ h := h
  stmt t ms a _ h := by
    show Found info ms (if t.isForeign then ⟨[], a.live ++ a.idle⟩ else a)
    split
    · intro hidle b
      obtain ⟨hlive, hrest⟩ := List.forall_mem_append.1 hidle
      rw [h hrest b, List.countP_nil]
      exact List.countP_eq_zero.2 fun x hx => by simp [hlive x hx]
    · exact h
  declarator _ _ _ _ h := h.within _
  element _ _ _ _ h := h.within _
  funcDecl _ h := h.within _
  clsDecl _ h := h.within _
  property _ _ _ h := h
  hole _ _ := rfl

namespace Program

variable {p q : Program} {info : Info}

/-- Resolution binds the references of a program at sites of their own, and counts what it binds. -/
theorem resolve_binds (hr : p.resolve = (q, info)) :
    (q.fold Fold.stamps).idle = (p.fold Fold.stamps).idle ∧ (∀ x ∈ (q.fold Fold.stamps).live, 0 < x) ∧
      ∃ h : Hoist.State, h.Unread ∧ Resolve.Binds (q.fold Fold.stamps).live h.resolving.info info := by
  have hs := Program.walkScopes_walks Hoist.stamping_walks p Hoist.State.start
  rw [Program.resolve_eq] at hr
  generalize p.walkScopes Hoist.visitor Hoist.State.start = h at hs hr
  obtain ⟨hsame, hcount⟩ := Program.walkScopes_walks Resolve.counted_walks h.1 h.2.resolving
  generalize h.1.walkScopes Resolve.visitor h.2.resolving = r at hsame hcount hr
  cases hr
  have hfree : ∀ x ∈ (h.1.fold Fold.stamps).live, h.2.resolving.info.refs[x]? = some none := fun x hx => by
    show (Array.replicate h.2.decls.size none)[x]? = some none
    rw [Array.getElem?_replicate, if_pos (hs.spans.range x hx).2]
  rw [← hsame]
  exact ⟨hs.idle, fun x hx => Nat.lt_of_lt_of_le Nat.zero_lt_one (hs.spans.range x hx).1,
    h.2, hs.unread (by simp [Hoist.State.Unread, Hoist.State.start]), hcount hs.spans.nodup hfree⟩

/-- Nothing is bound at site zero, which is taken by nothing. -/
theorem resolve_unsited (hr : p.resolve = (q, info)) : info.boundAt? 0 = none := by
  obtain ⟨-, hpos, h, -, hb⟩ := resolve_binds hr
  rw [Info.boundAt?, hb.frame 0 fun h0 => absurd (hpos 0 h0) (Nat.lt_irrefl 0)]
  show (Array.replicate h.decls.size none)[0]?.join.map Prod.fst = none
  rw [Array.getElem?_replicate]
  split <;> rfl

/-- The count of references of a binding is the number of its mentions, where no identifier had a number that
resolution leaves alone. -/
theorem resolve_references (hidle : ∀ x ∈ (p.fold Fold.stamps).idle, x = 0) (hr : p.resolve = (q, info))
    {b : BindingId} {d : Binding} (hd : info.binding? b = some d) :
    d.references = (q.mentions info).countP fun m => m.target = b := by
  obtain ⟨hsame, -, h, hunread, hb⟩ := resolve_binds hr
  have hfound := Program.fold_related (found_relates info) q (fun x hx => by
    rw [hsame] at hx
    rw [hidle x hx, resolve_unsited hr]) b
  -- No reference is counted before references are bound.
  have hcounts := hb.counts b
  rw [Info.count?, show info.bindings[b]? = some d from hd, Option.map_some, Info.count?] at hcounts
  obtain ⟨n, hn, hsum⟩ := Option.map_eq_some_iff.1 hcounts.symm
  obtain ⟨c, hc, rfl⟩ := Option.map_eq_some_iff.1 hn
  have hc0 : c.references = 0 := hunread _ (Array.mem_map.2 ⟨c, Array.mem_of_getElem? hc, rfl⟩)
  rw [hc0, Nat.zero_add] at hsum
  exact hsum.symm.trans hfound.symm

end Program

end Deadwood
