import Deadwood.Proofs.Cycles
import Deadwood.Proofs.Portable
import Deadwood.Proofs.Rooms
import Deadwood.Proofs.Stampless

/-!
# Orderly programs

Functions and classes of an orderly program are declared in lists of statements and in exports, and the
identifiers that resolution leaves alone have no sites.  A program that is parsed is orderly if its functions are
declared so, and a pass leaves it orderly.
-/

namespace Deadwood

open Elimination

/-- The names that a statement exports from another module have no sites. -/
def Stmt.Unsited : Stmt → Prop
  | .exportNames specs (some _) => ∀ spec ∈ specs, spec.source.site = 0
  | _ => True

/-- No statement that stands alone declares a function or class, and identifiers have no sites that resolution does
not number. -/
def Fold.orderly : Fold (Bool → Prop) where
  empty _ := True
  append P Q alone := P alone ∧ Q alone
  ident role id _ := role.isStamped = false → id.site = 0
  expr _ P _ := P false
  stmt t P alone := t.Unsited ∧ P (t.isolates alone)
  declarator _ P _ := P false
  element _ P _ := P false
  funcDecl _ P alone := alone = false ∧ P false
  clsDecl _ P alone := alone = false ∧ P false

def Program.Orderly (p : Program) : Prop := p.fold Fold.orderly false

/-! ### Where a statement stands -/

section

variable {alone alone' : Bool}

theorem Expr.orderly_iff (e : Expr) : e.fold Fold.orderly alone ↔ e.fold Fold.orderly alone' := by
  cases e <;> exact Iff.rfl

theorem Declarator.foldList_orderly_iff (kind : BindingKind) (ds : List Declarator) :
    Declarator.foldList Fold.orderly kind ds alone ↔ Declarator.foldList Fold.orderly kind ds alone' := by
  induction ds with
  | nil => exact Iff.rfl
  | cons d ds ih =>
    cases d
    exact and_congr_right' ih

/-- Only of a function or class it matters whether it stands alone. -/
theorem Stmt.orderly_iff {t : Stmt} (hf : ∀ f, t ≠ .func f) (hc : ∀ c, t ≠ .cls c) :
    t.fold Fold.orderly alone ↔ t.fold Fold.orderly alone' := by
  cases t with
  | func f => exact absurd rfl (hf f)
  | cls c => exact absurd rfl (hc c)
  | decl kind ds => exact and_congr_right' (Declarator.foldList_orderly_iff kind.bindingKind ds)
  | _ => exact Iff.rfl

theorem Stmt.orderly_listed {t : Stmt} (h : t.fold Fold.orderly alone) : t.fold Fold.orderly false := by
  cases t with
  | func f => exact ⟨trivial, rfl, h.2.2⟩
  | cls c => exact ⟨trivial, rfl, h.2.2⟩
  | _ => refine (Stmt.orderly_iff ?_ ?_).1 h <;> intro _ he <;> cases he

theorem Stmt.orderly_anywhere {t : Stmt} (h : t.fold Fold.orderly true) : t.fold Fold.orderly alone := by
  cases t with
  | func f => exact absurd h.2.1 Bool.true_eq_false.mp
  | cls c => exact absurd h.2.1 Bool.true_eq_false.mp
  | _ => refine (Stmt.orderly_iff ?_ ?_).1 h <;> intro _ he <;> cases he

end

/-! ### Passes -/

theorem Fold.orderly_list {ts : List Stmt} {alone : Bool} :
    Stmt.foldList Fold.orderly ts alone ↔ ∀ t ∈ ts, t.fold Fold.orderly alone := by
  induction ts with
  | nil => exact iff_of_true trivial nofun
  | cons t ts ih =>
    rw [List.forall_mem_cons, ← ih]
    exact Iff.rfl

theorem Fold.orderly_hereditary : Fold.orderly.Hereditary fun _ => true where
  empty _ := trivial
  append := Iff.rfl
  nothing _ := ⟨trivial, trivial⟩
  wrapped h := ⟨trivial, Fold.orderly_list.2 fun t ht => Stmt.orderly_listed (Fold.orderly_list.1 h t ht)⟩
  unwrapped h hbody := Fold.orderly_list.2 fun t ht => by
    have hscoped : t.isBlockScoped = false := by simpa using List.any_eq_false.1 hbody t ht
    refine (Stmt.orderly_iff (fun f hf => ?_) fun k hk => ?_).1 (Fold.orderly_list.1 h.2 t ht)
    · subst hf
      cases hscoped
    · subst hk
      cases hscoped
  cond {_ _ _ _} := (iff_of_eq (true_and _)).trans (and_congr_left' (Expr.orderly_iff _))
  branched h := Stmt.orderly_anywhere h
  bare ids c := by
    refine ⟨trivial, ?_⟩
    induction ids with
    | nil => trivial
    | cons id ids ih => exact ⟨⟨nofun, trivial⟩, ih⟩
  choice {test yes no c} := and_congr (Expr.orderly_iff _) (and_congr (Expr.orderly_iff _) (Expr.orderly_iff _))
  seq he := ⟨trivial, (Expr.orderly_iff _).1 he, trivial⟩
  not {e c} := by
    show e.fold Fold.orderly false ↔ _
    exact e.orderly_iff
  short := iff_of_true ⟨nofun, trivial⟩ nofun
  keyed he := ⟨trivial, he⟩

/-- What is inside of an expression, function or class may go anywhere. -/
theorem Fold.orderly_portable : Fold.orderly.Portable (fun _ => true) false where
  toHereditary := Fold.orderly_hereditary
  binding _ _ _ := rfl
  expr := Iff.rfl
  stmt {t t'} ht c := by
    have hunsited (t : Stmt) : t.head.Unsited ↔ t.Unsited := by cases t <;> exact Iff.rfl
    have hisolates (t : Stmt) : t.head.isolates c = t.isolates c := by cases t <;> rfl
    refine ⟨t.Unsited, t.isolates c, fun P => ⟨Iff.rfl, ?_⟩⟩
    show t'.Unsited ∧ P (t'.isolates c) ↔ _
    rw [← hunsited t', ← hisolates t', ← ht, hunsited, hisolates]
  property _ := .refl
  declarator _ _ := ⟨True, false, fun _ => ⟨(and_iff_right trivial).symm, (and_iff_right trivial).symm⟩⟩
  element _ _ := ⟨True, false, fun _ => ⟨(and_iff_right trivial).symm, (and_iff_right trivial).symm⟩⟩
  funcDecl _ _ c := ⟨c = false, fun _ => ⟨Iff.rfl, Iff.rfl⟩⟩
  clsDecl _ _ c := ⟨c = false, fun _ => ⟨Iff.rfl, Iff.rfl⟩⟩

theorem Fold.orderly_stampless : Fold.orderly.Stampless where
  lawful := Fold.orderly_hereditary.lawful
  ident {role} id id' h := by
    have hvacuous (x : Site) : (role.isStamped = false → x = 0) = True :=
      eq_true fun hno => absurd (h.symm.trans hno) Bool.true_eq_false.mp
    funext c
    exact (hvacuous _).trans (hvacuous _).symm
  expr _ := rfl
  stmt {t t'} ht hf := by
    have hunsited {t : Stmt} (hf : t.isForeign = false) : t.Unsited = True := by
      cases t with
      | exportNames specs source =>
        cases source with
        | none => rfl
        | some source => cases hf
      | _ => rfl
    have hisolates (t : Stmt) (c : Bool) : t.form.isolates c = t.isolates c := by cases t <;> rfl
    have hf' : t'.isForeign = false := by rw [← t'.isForeign_form, ← ht, t.isForeign_form, hf]
    funext P c
    show (t.Unsited ∧ P (t.isolates c)) = (t'.Unsited ∧ P (t'.isolates c))
    rw [hunsited hf, hunsited hf', ← hisolates t, ht, hisolates]
  property _ := rfl
  declarator _ _ := rfl
  element _ _ := rfl
  funcDecl _ _ := rfl
  clsDecl _ := rfl

namespace Program

variable {p q : Program}

theorem Orderly.resolve (h : p.Orderly) : p.resolve.1.Orderly :=
  (congrFun (Fold.orderly_stampless.resolve p) false).mpr h

/-- A pass leaves an orderly program. -/
theorem Orderly.eliminateOnce (h : p.Orderly) {rs : List Change} (hq : p.eliminateOnce = some (q, rs)) : q.Orderly :=
  Fold.orderly_portable.eliminateOnce h.resolve hq

/-! ### Parsed programs -/

theorem unsited_of_sound {specs : List ExportSpec} {c : Targets × Bool}
    (h : ((Fold.funcsListed.both (Fold.sound fun id => id.site = 0)).all
      (fun s : ExportSpec => (Fold.funcsListed.both (Fold.sound fun id => id.site = 0)).ident .exported s.source)
        specs).2 c) :
    ∀ spec ∈ specs, spec.source.site = 0 := by
  induction specs with
  | nil => nofun
  | cons spec specs ih => exact List.forall_mem_cons.2 ⟨h.1, ih h.2⟩

/-- A program without numbers is orderly if its functions are declared in lists and exports, and its classes as well. -/
theorem orderly_relates : (Fold.funcsListed.both (Fold.sound fun id => id.site = 0)).Relates Fold.orderly fun a P =>
    ∀ c alone, a.1 alone = true → a.2 (c, alone) → P alone ∧ P false where
  empty _ _ _ _ := ⟨trivial, trivial⟩
  append h h' c alone hl hs := by
    obtain ⟨hl, hl'⟩ := Bool.and_eq_true_iff.1 hl
    have hP := h c alone hl hs.1
    have hQ := h' c alone hl' hs.2
    exact ⟨⟨hP.1, hQ.1⟩, hP.2, hQ.2⟩
  ident _ _ _ _ _ hs := ⟨fun _ => hs, fun _ => hs⟩
  expr _ _ _ _ h _ _ hl hs := ⟨(h _ false hl hs).1, (h _ false hl hs).1⟩
  stmt t a P hnames h c alone hl hs := by
    have hP := h _ _ hl hs.2
    have hunsited : t.Unsited := by
      cases t with
      | exportNames specs source =>
        cases source with
        | none => trivial
        | some source =>
          have hs := hs.2
          rw [hnames _ _ rfl] at hs
          exact unsited_of_sound hs
      | _ => trivial
    refine ⟨⟨hunsited, hP.1⟩, hunsited, ?_⟩
    cases t with
    | decl | func | cls => exact hP.2
    | _ => exact hP.1
  declarator _ _ _ _ h c alone hl hs := ⟨(h c alone hl hs).2, (h c alone hl hs).2⟩
  element _ _ _ _ h c alone hl hs := ⟨(h c alone hl hs).2, (h c alone hl hs).2⟩
  funcDecl f h c alone hl hs := by
    obtain ⟨hl, hl'⟩ := Bool.and_eq_true_iff.1 hl
    have hP := (h _ false hl' hs).1
    exact ⟨⟨by simpa using hl, hP⟩, rfl, hP⟩
  clsDecl k h c alone hl hs := by
    have hP := (h _ false hl hs.2).1
    exact ⟨⟨hs.1, hP⟩, rfl, hP⟩
  property _ _ _ h := h
  hole _ _ _ _ := ⟨trivial, trivial⟩

theorem orderly_of_parse {text : String} (h : parse text = .ok p) (hf : p.funcsListed = true) : p.Orderly := by
  have hs := sound_of_parse (I := fun id => id.site = 0) (fun _ => rfl) h
  refine (fold_related orderly_relates p {} false ?_ ?_).1
  · rw [fold, Stmt.foldList_both]
    exact hf
  · rw [fold, Stmt.foldList_both]
    exact hs

/-! ### What follows from order -/

theorem stamps_of_orderly_relates : Fold.stamps.Relates Fold.orderly fun a P => ∀ c, P c → ∀ x ∈ a.idle, x = 0 where
  empty _ _ := nofun
  append h h' c hPQ := List.forall_mem_append.2 ⟨h c hPQ.1, h' c hPQ.2⟩
  ident role id c hP := by
    cases role with
    | label | property => exact List.forall_mem_singleton.2 (hP rfl)
    | _ => nofun
  expr _ _ _ _ h _ hP := h _ hP
  stmt t a P hnames h c hP := by
    show ∀ x ∈ (if t.isForeign then _ else a : Stamps).idle, x = 0
    split
    next hf =>
      obtain ⟨specs, source, rfl⟩ : ∃ specs source, t = .exportNames specs (some source) := by
        cases t with
        | exportNames specs source =>
          cases source with
          | none => cases hf
          | some source => exact ⟨specs, source, rfl⟩
        | _ => cases hf
      have hsites := hP.1
      rw [hnames _ _ rfl]
      clear hnames h hP hf
      induction specs with
      | nil => nofun
      | cons spec specs ih =>
        obtain ⟨hspec, hspecs⟩ := List.forall_mem_cons.1 hsites
        exact List.forall_mem_cons.2 ⟨hspec, ih hspecs⟩
    · exact h _ hP.2
  declarator _ _ _ _ h _ hP := h _ hP
  element _ _ _ _ h _ hP := h _ hP
  funcDecl _ h _ hP := h _ hP.2
  clsDecl _ h _ hP := h _ hP.2
  property _ _ _ h := h
  hole _ _ := nofun

/-- What resolution leaves alone has no sites. -/
theorem Orderly.idle (h : p.Orderly) : ∀ x ∈ (p.fold Fold.stamps).idle, x = 0 :=
  fold_related stamps_of_orderly_relates p false h

end Program

theorem Declarator.rooms_heads (kind : BindingKind) (ds : List Declarator) :
    (Declarator.foldElems Fold.rooms kind ds).heads = [] := by
  induction ds with
  | nil => rfl
  | cons d ds ih =>
    cases d
    exact ih

theorem PatternProp.rooms_heads (kind : BindingKind) (ps : List PatternProp) :
    (PatternProp.foldList Fold.rooms kind ps).heads = [] := by
  induction ps with
  | nil => rfl
  | cons p ps ih =>
    obtain ⟨key, computed, shorthand, ⟨site, target, init⟩⟩ := p
    cases computed with
    | false => exact ih
    | true =>
      cases key <;> exact ih

mutual

/-- No function or class is declared by a pattern. -/
theorem Pattern.rooms_heads (kind : BindingKind) (p : Pattern) : (p.fold Fold.rooms kind).heads = [] := by
  match p with
  | .hole | .ident _ => rfl
  | .array elems rest =>
    exact List.append_eq_nil_iff.2 ⟨Declarator.rooms_heads kind elems, Pattern.rooms_headsOpt kind rest⟩
  | .object props rest =>
    exact List.append_eq_nil_iff.2 ⟨PatternProp.rooms_heads kind props, Pattern.rooms_headsOpt kind rest⟩

theorem Pattern.rooms_headsOpt (kind : BindingKind) (p : Option Pattern) :
    (Pattern.foldOpt Fold.rooms kind p).heads = [] := by
  match p with
  | none => rfl
  | some p => exact Pattern.rooms_heads kind p

end

/-- Nor by a target and an initializer. -/
theorem Declarator.rooms_parts (kind : BindingKind) (target : Pattern) (init : Option Expr) :
    (Fold.rooms.append (target.fold Fold.rooms kind) (Expr.foldOpt Fold.rooms init)).heads = [] := by
  refine List.append_eq_nil_iff.2 ⟨Pattern.rooms_heads kind target, ?_⟩
  cases init with
  | none => rfl
  | some e => cases e <;> rfl

namespace Program

theorem rooms_of_orderly_relates : Fold.rooms.Relates Fold.orderly fun a P =>
    ∀ alone, P alone → a.stray = [] ∧ (alone = true → a.heads = []) where
  empty _ _ := ⟨rfl, fun _ => rfl⟩
  append h h' alone hPQ := by
    obtain ⟨hs, hh⟩ := h alone hPQ.1
    obtain ⟨hs', hh'⟩ := h' alone hPQ.2
    exact ⟨List.append_eq_nil_iff.2 ⟨hs, hs'⟩, fun ha => List.append_eq_nil_iff.2 ⟨hh ha, hh' ha⟩⟩
  ident role _ _ _ := by cases role <;> exact ⟨rfl, fun _ => rfl⟩
  expr _ _ _ _ h _ hP := ⟨(h _ hP).1, fun _ => rfl⟩
  stmt t a P _ h alone hP := by
    obtain ⟨hs, hh⟩ := h _ hP.2
    cases t with
    | decl | func | cls => exact ⟨hs, hh⟩
    | block | switch | tryCatch | tryFinally | exportDecl | exportDefault => exact ⟨hs, fun _ => rfl⟩
    | _ => exact ⟨List.append_eq_nil_iff.2 ⟨hh rfl, hs⟩, fun _ => rfl⟩
  declarator kind site target init h _ hP :=
    ⟨List.append_eq_nil_iff.2 ⟨Declarator.rooms_parts kind target init, (h _ hP).1⟩, fun _ => rfl⟩
  element kind site target init h _ hP :=
    ⟨List.append_eq_nil_iff.2 ⟨Declarator.rooms_parts kind target init, (h _ hP).1⟩, fun _ => rfl⟩
  funcDecl f h alone hP := by
    refine ⟨(h _ hP.2).1, fun ha => ?_⟩
    cases hP.1.symm.trans ha
  clsDecl k h alone hP := by
    refine ⟨(h _ hP.2).1, fun ha => ?_⟩
    cases hP.1.symm.trans ha
  property _ _ _ h := h
  hole _ _ := ⟨rfl, fun _ => rfl⟩

/-- No function or class stands alone. -/
theorem Orderly.stray {p : Program} (h : p.Orderly) : (p.fold Fold.rooms).stray = [] :=
  (fold_related rooms_of_orderly_relates p false h).1

end Program

end Deadwood
