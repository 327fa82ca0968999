import Deadwood.Proofs.Stamps
import Deadwood.Scope.Basic

/-!
# Other numbers for scopes

Two tables may say the same of the names of a program and give its scopes other marks.  Scopes that hold no
names and stand around none need not be in both.  Whatever is asked of a table that does not depend on the
marks themselves then has the same answer in both.
-/

namespace Deadwood

def Ident.renumber (φ : Mark → Mark) (id : Ident) : Ident := { id with mark := φ id.mark }

def Binding.renumber (φ : Mark → Mark) (b : Binding) : Binding :=
  { b with scope := φ b.scope, declScope := φ b.declScope }

def Scope.renumber (φ : Mark → Mark) (s : Scope) : Scope := { s with mark := φ s.mark, outer := s.outer.map φ }

/-- Two tables of one program, where the second one has other marks for the scopes that are kept. -/
structure Renumbering where
  info : Info
  info' : Info
  number : Mark → Mark
  kept : Mark → Prop
  number_eq_zero : ∀ m, number m = 0 ↔ m = 0
  injective : ∀ {m n}, kept m → kept n → number m = number n → m = n
  decls : info'.decls = info.decls
  bindings : info'.bindings = info.bindings.map (Binding.renumber number)
  refs : info'.refs = info.refs.map (Option.map fun r => (r.1, number r.2))
  scopes : ∀ {m}, kept m → info'.scope? (number m) = (info.scope? m).map (Scope.renumber number)
  path : ∀ {m sc}, kept m → info.scope? m = some sc → ∀ n ∈ sc.path, kept n
  held : ∀ {i b}, info.binding? i = some b → kept b.scope ∧ kept b.declScope
  around : ∀ {id m}, info.scopeOf? id = some m → kept m

namespace Renumbering

variable (R : Renumbering)

/-- The identifier with its mark in the second table. -/
def stamp : Ident → Ident := Ident.renumber R.number

@[simp] theorem stamp_name (id : Ident) : (R.stamp id).name = id.name := rfl

@[simp] theorem stamp_site (id : Ident) : (R.stamp id).site = id.site := rfl

theorem alikeStamps : AlikeStamps R.stamp id := fun id => ⟨rfl, R.number_eq_zero id.mark⟩

theorem join_map {α β : Type} (xs : Array (Option α)) (f : α → β) (i : Nat) :
    (xs.map (Option.map f))[i]?.join = xs[i]?.join.map f := by
  rw [Array.getElem?_map]
  cases xs[i]? <;> rfl

theorem bindingOf? (id : Ident) : R.info'.bindingOf? (R.stamp id) = R.info.bindingOf? id := by
  simp only [Info.bindingOf?, R.refs, join_map, stamp_site, Option.map_map]
  rfl

theorem scopeOf? (id : Ident) : R.info'.scopeOf? (R.stamp id) = (R.info.scopeOf? id).map R.number := by
  simp only [Info.scopeOf?, R.refs, join_map, stamp_site, Option.map_map]
  rfl

theorem declaration? (id : Ident) : R.info'.declaration? (R.stamp id) = R.info.declaration? id := by
  simp only [Info.declaration?, R.decls, stamp_site]

theorem binding? (i : BindingId) : R.info'.binding? i = (R.info.binding? i).map (Binding.renumber R.number) := by
  simp only [Info.binding?, R.bindings, Array.getElem?_map]

variable {R}

theorem kept_eq_iff {m n : Mark} (hm : R.kept m) (hn : R.kept n) : R.number m = R.number n ↔ m = n :=
  ⟨R.injective hm hn, congrArg R.number⟩

theorem hasEval {i : BindingId} {b : Binding} (hb : R.info.binding? i = some b) :
    R.info'.hasEval (b.renumber R.number) = R.info.hasEval b := by
  have hs := R.scopes (R.held hb).1
  simp only [Info.hasEval, Binding.renumber, hs]
  cases R.info.scope? b.scope <;> rfl

theorem isBound {i : BindingId} {b : Binding} (hb : R.info.binding? i = some b) :
    R.info'.isBound i (b.renumber R.number) = R.info.isBound i b := by
  have hs := R.scopes (R.held hb).1
  simp only [Info.isBound, Binding.renumber, hs]
  cases R.info.scope? b.scope <;> rfl

theorem encloses {m n : Mark} (hm : R.kept m) (hn : R.kept n) :
    R.info'.encloses (R.number m) (R.number n) = R.info.encloses m n := by
  simp only [Info.encloses, R.scopes hm, R.scopes hn]
  cases hs : R.info.scope? m with
  | none => rfl
  | some s =>
    cases ht : R.info.scope? n with
    | none => rfl
    | some t =>
      have hpath : (t.renumber R.number).path = t.path.map R.number := rfl
      simp only [Option.map_some, Scope.encloses, hpath]
      rw [Bool.eq_iff_iff, List.contains_iff_mem, List.contains_iff_mem, List.mem_map]
      constructor
      · rintro ⟨k, hk, he⟩
        rwa [← R.injective (R.path hn ht k hk) (R.path hm hs _ List.mem_cons_self) he]
      · intro hk
        exact ⟨_, hk, rfl⟩

theorem lookupIn {path : List Mark} (hpath : ∀ m ∈ path, R.kept m) (name : String) :
    R.info'.lookupIn (path.map R.number) name = R.info.lookupIn path name := by
  induction path with
  | nil => rfl
  | cons m path ih =>
    have hm := R.scopes (hpath m List.mem_cons_self)
    have ih := ih fun n hn => hpath n (List.mem_cons_of_mem _ hn)
    simp only [Info.lookupIn] at ih
    simp only [Info.lookupIn, List.map_cons, List.findSome?_cons, hm, ih]
    cases R.info.scope? m <;> rfl

theorem lookup {m : Mark} (hm : R.kept m) (name : String) :
    R.info'.lookup (R.number m) name = R.info.lookup m name := by
  simp only [Info.lookup, R.scopes hm]
  cases hs : R.info.scope? m with
  | none => rfl
  | some s => exact lookupIn (R.path hm hs) name

end Renumbering

end Deadwood
