import Deadwood.Proofs.Numbering

/-!
# What resolution keeps

Resolution numbers and marks the identifiers of a program, other than labels, the names of properties and what
other modules export, and changes nothing else.  So a fold that does not look at these numbers and marks has the
same result before and after it.
-/

namespace Deadwood

variable {α : Type} {F : Fold α}

/-- Whether resolution numbers the identifiers of a role. -/
def Role.isStamped : Role → Bool
  | .label | .property => false
  | _ => true

/-- The parts of the fold do not depend on the numbers and marks that resolution gives to identifiers. -/
structure Fold.Stampless (F : Fold α) : Prop where
  lawful : F.Lawful
  ident : ∀ {role} id id', role.isStamped = true → F.ident role id = F.ident role id'
  expr : ∀ {e e'}, e.form = e'.form → F.expr e = F.expr e'
  stmt : ∀ {t t'}, t.form = t'.form → t.isForeign = false → F.stmt t = F.stmt t'
  property : ∀ {p p'}, p.Becomes p' → F.property p = F.property p'
  declarator : ∀ {site site' target target' init init'}, target.form = target'.form → init.isSome = init'.isSome →
    F.declarator (.mk site target init) = F.declarator (.mk site' target' init')
  element : ∀ {site site' target target' init init'}, target.form = target'.form → init.isSome = init'.isSome →
    F.element (.mk site target init) = F.element (.mk site' target' init')
  funcDecl : ∀ f f', F.funcDecl f = F.funcDecl f'
  clsDecl : ∀ {c c'}, c.form = c'.form → F.clsDecl c = F.clsDecl c'

namespace Fold.Stampless

/-- A walk that only numbers and marks identifiers keeps the result. -/
theorem walks (hF : F.Stampless) {σ : Type} {v : ScopeVisitor (StateM σ)}
    (hv : ∀ {γ : Type} kind opener (act : StateM σ γ) s, ∃ t, (v.inScope kind opener act s).1 = (act t).1)
    (hmap : ∀ {γ δ : Type} (f : γ → δ) (act : StateM σ γ) kind opener,
      v.inScope kind opener (f <$> act) = f <$> v.inScope kind opener act) :
    Walks v F F fun _ a _ b _ => a = b where
  empty := rfl
  append h h' := congrArg₂ F.append h h'
  swap h h' := congrArg₂ F.append h' h
  assoc {_ a b c a' b' c' _ _} h := by rw [← hF.lawful.assoc, h, hF.lawful.assoc]
  weaken _ h := h
  literal _ h := h
  hole := rfl
  label _ := rfl
  propertyName _ := rfl
  refer _ _ _ := hF.ident _ _ rfl
  declare _ _ _ _ _ _ := hF.ident _ _ rfl
  exportName _ _ := hF.ident _ _ rfl
  exportDeclared _ h := h
  contain _ h := h
  called _ h := h
  inScope _ act k kind opener h s := by
    obtain ⟨t, ht⟩ := hv kind opener act s
    rw [ht]
    exact h t
  straddle act k l kind opener h s hb := by
    obtain ⟨t, ht⟩ := hv kind opener act s
    obtain ⟨_, ha, hc⟩ := h t
    rw [ht]
    exact congrArg₂ F.append ha (congrArg₂ F.append hb hc)
  scope_map := hmap
  expr he h := congr (hF.expr he) h
  stmt ht hf h := congr (hF.stmt ht hf) h
  foreign _ _ _ := rfl
  property hp h := congr (hF.property hp) h
  element ht hi h := congr (hF.element ht hi) h
  declarator {kind site target target' init init' s t u _} ht hi h h' := by
    show F.declarator _ (F.append _ _) = F.declarator _ (F.append _ _)
    exact congr (hF.declarator ht hi) (congrArg₂ F.append h' h)
  func _ _ h := congr (hF.funcDecl ..) (congrArg _ h)
  funcNamed _ _ _ _ _ _ _ _ _ _ _ h := congr (hF.funcDecl ..) (congrArg₂ F.append (hF.ident _ _ rfl) h)
  cls hc _ _ h h' := congr (hF.clsDecl hc) (congrArg₂ F.append h (congrArg _ h'))
  clsNamed _ _ _ _ _ _ _ _ _ _ _ _ hc _ _ h h' :=
    congr (hF.clsDecl hc) (congrArg₂ F.append h (congrArg₂ F.append (hF.ident _ _ rfl) h'))

theorem resolve (hF : F.Stampless) (p : Program) : p.resolve.1.fold F = p.fold F := by
  have hh : Walks Hoist.visitor F F fun _ a _ b _ => a = b :=
    hF.walks (fun kind opener act s => ⟨s.entering kind opener, rfl⟩) fun _ _ _ _ => rfl
  have hr : Walks Resolve.visitor F F fun _ a _ b _ => a = b :=
    hF.walks (fun _ _ act s => ⟨{ s with entered := s.entered + 1, path := (s.entered + 1) :: s.path }, rfl⟩)
      fun _ _ _ _ => rfl
  rw [Program.resolve_eq]
  exact ((Program.walkScopes_walks hh p _).trans (Program.walkScopes_walks hr _ _)).symm

end Fold.Stampless

end Deadwood
