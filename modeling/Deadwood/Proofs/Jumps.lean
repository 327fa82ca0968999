import Deadwood.Proofs.Fold
import Deadwood.Proofs.Standing

/-!
# Targets of jumps

A jump aims at a statement around it: `break` and `continue` at a loop, a `switch` or a labelled statement,
`return` at the function.  `Program.Aimed` says that every jump of a program has its target.
-/

namespace Deadwood

/-- What the jumps of a statement can aim at. -/
structure Targets where
  /-- The labels of the statements around it. -/
  labels : List String := []
  inLoop : Bool := false
  inSwitch : Bool := false
  inFunction : Bool := false
deriving DecidableEq, Repr, Inhabited

/-- The targets in a body that no jump leaves: of a function, a method, an arrow function or a static
block. -/
def Targets.body : Targets := { inFunction := true }

/-- What the jumps in the parts of a statement can aim at. -/
def Stmt.targets (c : Targets) : Stmt → Targets
  | .labelled label _ => { c with labels := c.labels ++ [label.name] }
  | .while .. | .doWhile .. | .for .. | .forIn .. | .forOf .. => { c with inLoop := true }
  | .switch .. => { c with inSwitch := true }
  | _ => c

/-- A jump has its target. -/
def Stmt.Hits (c : Targets) : Stmt → Prop
  | .brk none => c.inLoop ∨ c.inSwitch
  | .brk (some label) => label.name ∈ c.labels
  | .cont none => c.inLoop
  | .cont (some label) => label.name ∈ c.labels ∧ c.inLoop
  | .ret _ => c.inFunction
  | _ => True

/-- All jumps have their targets.  In an expression, a function and a class, statements stand only as parts of
bodies that no jump leaves. -/
def Fold.aimed : Fold (Targets → Prop) where
  empty _ := True
  append P Q c := P c ∧ Q c
  ident _ _ _ := True
  expr _ P _ := P .body
  stmt t P c := t.Hits c ∧ P (t.targets c)
  funcDecl _ P _ := P .body
  clsDecl _ P _ := P .body

/-- Every jump of a program has its target. -/
def Program.Aimed (p : Program) : Prop := p.fold Fold.aimed {}

/-- No `break` leaves a function. -/
example : ¬ (Program.mk [.while .hole (.expr (.arrowBlock [] none [.brk none] false))]).Aimed := by
  rintro ⟨⟨-, -, -, -, -, h | h, -⟩, -⟩ <;> cases h

def Expr.Aimed (e : Expr) : Prop := e.fold Fold.aimed .body

def Declarator.Aimed (d : Declarator) : Prop := ∀ kind c, d.fold Fold.aimed kind c

/-! ### Jumps, classes and identifiers -/

/-- All jumps have their targets, no statement that stands alone declares a class, and something holds of all
identifiers. -/
def Fold.sound (I : Ident → Prop) : Fold (Targets × Bool → Prop) where
  empty _ := True
  append P Q c := P c ∧ Q c
  ident _ id _ := I id
  expr _ P _ := P (.body, false)
  stmt t P c := t.Hits c.1 ∧ P (t.targets c.1, t.isolates c.2)
  funcDecl _ P _ := P (.body, false)
  clsDecl _ P c := c.2 = false ∧ P (.body, false)

variable {I : Ident → Prop}

def Expr.Sound (I : Ident → Prop) (e : Expr) : Prop := e.fold (Fold.sound I) (.body, false)

def Property.Sound (I : Ident → Prop) (p : Property) : Prop := p.fold (Fold.sound I) (.body, false)

def Func.Sound (I : Ident → Prop) (f : Func) : Prop := f.fold (Fold.sound I) .own (.body, false)

def Class.Sound (I : Ident → Prop) (c : Class) : Prop := c.fold (Fold.sound I) .own (.body, false)

def ClassElement.Sound (I : Ident → Prop) (e : ClassElement) : Prop := e.fold (Fold.sound I) (.body, false)

def Pattern.Sound (I : Ident → Prop) (p : Pattern) : Prop := ∀ kind c, p.fold (Fold.sound I) kind c

def PatternProp.Sound (I : Ident → Prop) (p : PatternProp) : Prop := ∀ kind c, p.fold (Fold.sound I) kind c

def Declarator.Sound (I : Ident → Prop) (d : Declarator) : Prop := ∀ kind c, d.fold (Fold.sound I) kind c

def ForHead.Sound (I : Ident → Prop) (head : ForHead) : Prop := ∀ c, head.fold (Fold.sound I) c

def Case.Sound (I : Ident → Prop) (c : Targets) (k : Case) : Prop := k.fold (Fold.sound I) (c, false)

def Stmt.Sound (I : Ident → Prop) (c : Targets) (t : Stmt) : Prop := t.fold (Fold.sound I) (c, false)

/-- A statement that may stand alone. -/
def Stmt.SoundAlone (I : Ident → Prop) (c : Targets) (t : Stmt) : Prop := ∀ alone, t.fold (Fold.sound I) (c, alone)

/-- Where an expression stands does not matter. -/
theorem Expr.sound_iff {e : Expr} {c : Targets × Bool} : e.fold (Fold.sound I) c ↔ e.Sound I := by
  cases e <;> exact Iff.rfl

theorem Func.sound_iff {f : Func} {kind : BindingKind} : f.fold (Fold.sound I) kind (.body, false) ↔ f.Sound I := by
  cases f with
  | mk name => cases name <;> exact Iff.rfl

theorem Class.sound_iff {c : Class} {kind : BindingKind} : c.fold (Fold.sound I) kind (.body, false) ↔ c.Sound I := by
  cases c with
  | mk name => cases name <;> exact Iff.rfl

theorem Declarator.sound_iff {d : Declarator} {kind : BindingKind} {c : Targets × Bool} :
    d.foldElem (Fold.sound I) kind c ↔ d.fold (Fold.sound I) kind c := by
  cases d
  exact Iff.rfl

/-! ### Lists -/

variable {c : Targets}

theorem Fold.sound_optIdent {id : Option Ident} (h : ∀ x ∈ id, I x) (role : Role) (c : Targets × Bool) :
    (Fold.sound I).optIdent role id c := by
  cases id with
  | none => trivial
  | some id => exact h id rfl

theorem Expr.foldOpt_sound {e : Option Expr} (h : ∀ x ∈ e, x.Sound I) (c : Targets × Bool) :
    Expr.foldOpt (Fold.sound I) e c := by
  cases e with
  | none => trivial
  | some e => exact Expr.sound_iff.2 (h e rfl)

theorem Pattern.foldOpt_sound {p : Option Pattern} (h : ∀ x ∈ p, x.Sound I) (kind : BindingKind) (c : Targets × Bool) :
    Pattern.foldOpt (Fold.sound I) kind p c := by
  cases p with
  | none => trivial
  | some p => exact h p rfl kind c

/-- A fold over a list goes through its elements. -/
theorem Fold.sound_list {β : Type} {f : β → Targets × Bool → Prop} {g : List β → Targets × Bool → Prop}
    (hnil : g [] = (Fold.sound I).empty) (hcons : ∀ b bs, g (b :: bs) = (Fold.sound I).append (f b) (g bs))
    {bs : List β} {c : Targets × Bool} : g bs c ↔ ∀ b ∈ bs, f b c := by
  induction bs with
  | nil => exact iff_of_true (hnil ▸ trivial) nofun
  | cons b bs ih => rw [hcons, List.forall_mem_cons, ← ih]; exact Iff.rfl

theorem Expr.foldList_sound {es : List Expr} {c : Targets × Bool} :
    Expr.foldList (Fold.sound I) es c ↔ ∀ e ∈ es, e.Sound I :=
  (Fold.sound_list rfl fun _ _ => rfl).trans (forall₂_congr fun _ _ => Expr.sound_iff)

theorem Property.foldList_sound {ps : List Property} :
    Property.foldList (Fold.sound I) ps (.body, false) ↔ ∀ p ∈ ps, p.Sound I :=
  Fold.sound_list rfl fun _ _ => rfl

theorem ClassElement.foldList_sound {es : List ClassElement} :
    ClassElement.foldList (Fold.sound I) es (.body, false) ↔ ∀ e ∈ es, e.Sound I :=
  Fold.sound_list rfl fun _ _ => rfl

theorem Declarator.foldList_sound {ds : List Declarator} (h : ∀ d ∈ ds, d.Sound I) (kind : BindingKind)
    (c : Targets × Bool) : Declarator.foldList (Fold.sound I) kind ds c :=
  (Fold.sound_list rfl fun _ _ => rfl).2 fun d hd => h d hd kind c

theorem Declarator.foldElems_sound {ds : List Declarator} (h : ∀ d ∈ ds, d.Sound I) (kind : BindingKind)
    (c : Targets × Bool) : Declarator.foldElems (Fold.sound I) kind ds c :=
  (Fold.sound_list rfl fun _ _ => rfl).2 fun d hd => Declarator.sound_iff.2 (h d hd kind c)

theorem PatternProp.foldList_sound {ps : List PatternProp} (h : ∀ p ∈ ps, p.Sound I) (kind : BindingKind)
    (c : Targets × Bool) : PatternProp.foldList (Fold.sound I) kind ps c :=
  (Fold.sound_list rfl fun _ _ => rfl).2 fun p hp => h p hp kind c

theorem Stmt.foldList_sound {ts : List Stmt} : Stmt.foldList (Fold.sound I) ts (c, false) ↔ ∀ t ∈ ts, t.Sound I c :=
  Fold.sound_list rfl fun _ _ => rfl

theorem Stmt.foldOptList_sound {ts : Option (List Stmt)} (h : ∀ x ∈ ts, ∀ t ∈ x, Stmt.Sound I c t) :
    Stmt.foldOptList (Fold.sound I) ts (c, false) := by
  cases ts with
  | none => trivial
  | some ts => exact Stmt.foldList_sound.2 (h ts rfl)

theorem Case.foldList_sound {ks : List Case} : Case.foldList (Fold.sound I) ks (c, false) ↔ ∀ k ∈ ks, k.Sound I c :=
  Fold.sound_list rfl fun _ _ => rfl

/-! ### Jumps alone -/

theorem Expr.aimed_iff {e : Expr} : e.fold Fold.aimed c ↔ e.Aimed := by
  cases e <;> exact Iff.rfl

/-- What is sound is aimed. -/
theorem Fold.aimed_sound : Fold.aimed.Relates (Fold.sound I) fun P Q => ∀ c, Q c → P c.1 where
  empty _ _ := trivial
  append h h' c hQ := ⟨h c hQ.1, h' c hQ.2⟩
  ident _ _ _ _ := trivial
  expr _ _ _ _ h _ hQ := h _ hQ
  stmt _ _ _ _ h _ hQ := ⟨hQ.1, h _ hQ.2⟩
  declarator _ _ _ _ h := h
  element _ _ _ _ h := h
  funcDecl _ h _ hQ := h _ hQ
  clsDecl _ h _ hQ := h _ hQ.2
  property _ _ _ h := h
  hole _ _ := trivial

theorem Declarator.foldList_aimed {ds : List Declarator} (h : ∀ d ∈ ds, d.Aimed) (kind : BindingKind) (c : Targets) :
    Declarator.foldList Fold.aimed kind ds c := by
  induction ds with
  | nil => trivial
  | cons d ds ih => exact ⟨h d List.mem_cons_self kind c, ih fun d hd => h d (List.mem_cons_of_mem _ hd)⟩

end Deadwood
