import Deadwood.Proofs.Fused
import Deadwood.Proofs.Uses

/-!
# Rooms

What a piece of syntax declares can be referred to in the piece around it, up to the next function, block or
expression, which is a room that its references do not leave.  Rooms are collected with the sites of what
is declared in them and of what is referred to.
-/

namespace Deadwood

open Elimination

structure Rooms where
  /-- The references. -/
  sites : List Site
  /-- The names in lists of exports. -/
  exported : List Site
  /-- The declarators and the functions and classes that can be referred to from outside. -/
  vars : List Site
  heads : List Site
  /-- The closed rooms, with what is declared in them and what is referred to. -/
  rooms : List (List Site × List Site)
  /-- What is declared in the lists of statements within. -/
  listed : List Site
  /-- The declarators that do not stand in a list of statements. -/
  loose : List Site
  /-- The functions and classes that are exported. -/
  fixed : List Site
  /-- The functions and classes that stand alone. -/
  stray : List Site

namespace Rooms

def empty : Rooms := ⟨[], [], [], [], [], [], [], [], []⟩

def append (a b : Rooms) : Rooms where
  sites := a.sites ++ b.sites
  exported := a.exported ++ b.exported
  vars := a.vars ++ b.vars
  heads := a.heads ++ b.heads
  rooms := a.rooms ++ b.rooms
  listed := a.listed ++ b.listed
  loose := a.loose ++ b.loose
  fixed := a.fixed ++ b.fixed
  stray := a.stray ++ b.stray

/-- A piece that its names are not referred to from outside of. -/
def close (a : Rooms) : Rooms :=
  { a with
    vars := []
    heads := []
    rooms := (a.vars ++ a.heads, a.sites) :: a.rooms
    listed := a.vars ++ a.heads ++ a.listed }

/-- A piece whose declarations stand alone. -/
def shut (a : Rooms) : Rooms :=
  { a with vars := [], heads := [], loose := a.vars ++ a.loose, stray := a.heads ++ a.stray }

/-- A declaration that is exported. -/
def fix (a : Rooms) : Rooms :=
  { a with vars := [], heads := [], loose := a.vars ++ a.loose, fixed := a.heads ++ a.fixed }

def stmt (a : Rooms) : Stmt → Rooms
  | .exportDecl _ | .exportDefault _ => a.fix
  | x =>
    match x.place with
    | .part => a
    | .list => a.close
    | .slot => a.shut

/-- The declaration of a function or class of the given name. -/
def named (name : Option Ident) (a : Rooms) : Rooms :=
  { a.close with heads := name.toList.map Ident.site }

end Rooms

/-- Collects rooms. -/
def Fold.rooms : Fold Rooms where
  empty := .empty
  append := .append
  ident role id :=
    match role with
    | .reference => { Rooms.empty with sites := [id.site] }
    | .exported => { Rooms.empty with exported := [id.site] }
    | _ => .empty
  expr _ a := a.close
  stmt x a := a.stmt x
  declarator d a := { a.shut with vars := [d.site] }
  element _ a := a.shut
  funcDecl f a := a.named f.name
  clsDecl c a := a.named c.name

/-- What is to be known of the rooms of a piece for its declarations not to be referred to from outside. -/
structure Rooms.Quiet (W : Watch) (a : Rooms) : Prop where
  rooms : ∀ room ∈ a.rooms, ∀ j ∈ W.inlined, ∀ σ ∈ room.1, W.origin j = some σ → W.Covered j room.2
  loose : ∀ σ ∈ a.loose, σ ∉ W.gone
  fixed : ∀ σ ∈ a.fixed, σ ∉ W.gone
  stray : ∀ σ ∈ a.stray, σ ∉ W.gone

/-- A piece of which nothing that is inlined is referred to from outside of its room. -/
structure Rooms.Fits {W : Watch} (a : Uses W) (b : Rooms) : Prop where
  sites : a.sites = b.sites
  tops : ∀ σ, σ ∈ a.tops ↔ σ ∈ b.vars ∨ σ ∈ b.heads
  lists : ∀ σ ∈ a.lists, σ ∈ b.listed
  closed : b.Quiet W → a.closed

namespace Rooms

variable {W : Watch} {a a' : Uses W} {b b' : Rooms}

theorem Fits.close (h : Fits a b) : Fits a.close b.close where
  sites := h.sites
  tops σ := by simp [Uses.close, Rooms.close]
  lists σ hσ := by
    refine (List.mem_append.1 hσ).elim (fun hl => List.mem_append_right _ (h.lists σ hl)) fun ht => ?_
    exact List.mem_append_left _ (List.mem_append.2 ((h.tops σ).1 ht))
  closed hq := by
    refine ⟨h.closed { hq with rooms := fun room hr => hq.rooms room (List.mem_cons_of_mem _ hr) }, ?_⟩
    intro j hj σ hσ ho
    rw [h.sites]
    exact hq.rooms _ List.mem_cons_self j hj σ (List.mem_append.2 ((h.tops σ).1 hσ)) ho

theorem Fits.shut_closed (h : Fits a b) (hq : b.shut.Quiet W) : a.closed ∧ ∀ σ ∈ a.tops, σ ∉ W.gone := by
  refine ⟨h.closed { hq with
    loose := fun σ hσ => hq.loose σ (List.mem_append_right _ hσ)
    stray := fun σ hσ => hq.stray σ (List.mem_append_right _ hσ) }, fun σ hσ => ?_⟩
  rcases (h.tops σ).1 hσ with hv | hh
  · exact hq.loose σ (List.mem_append_left _ hv)
  · exact hq.stray σ (List.mem_append_left _ hh)

theorem Fits.export_closed (h : Fits a b) (hq : b.fix.Quiet W) : a.closed ∧ ∀ σ ∈ a.tops, σ ∉ W.gone := by
  refine ⟨h.closed { hq with
    loose := fun σ hσ => hq.loose σ (List.mem_append_right _ hσ)
    fixed := fun σ hσ => hq.fixed σ (List.mem_append_right _ hσ) }, fun σ hσ => ?_⟩
  rcases (h.tops σ).1 hσ with hv | hh
  · exact hq.loose σ (List.mem_append_left _ hv)
  · exact hq.fixed σ (List.mem_append_left _ hh)

theorem Fits.shut (h : Fits a b) : Fits a.shut b.shut where
  sites := h.sites
  tops σ := by simp [Uses.shut, Rooms.shut]
  lists := h.lists
  closed hq := h.shut_closed hq

theorem Fits.stmt (h : Fits a b) (x : Stmt) : Fits (a.stmt x.place) (b.stmt x) := by
  have hshut : Fits a.shut b.shut := h.shut
  have hexport : Fits a.shut b.fix := ⟨h.sites, fun σ => by simp [Uses.shut, Rooms.fix], h.lists, h.export_closed⟩
  cases x with
  | exportDecl | exportDefault => exact hexport
  | decl | func | cls => exact h
  | block | switch | tryCatch | tryFinally => exact h.close
  | _ => exact hshut

theorem Fits.named (h : Fits a b) (name : Option Ident) : Fits (a.named name) (b.named name) := by
  cases name with
  | none => exact h.close
  | some id =>
    refine ⟨h.sites, fun σ => ?_, h.close.lists, fun hq => h.close.closed { hq with }⟩
    simp [Uses.named, Uses.head, Rooms.named, Rooms.close]

/-- The rooms of a piece tell whether its uses are closed in. -/
theorem fits_relates (W : Watch) : W.fold.Relates Fold.rooms Fits where
  empty := ⟨rfl, fun σ => by simp [Watch.fold, Uses.empty, Fold.rooms, Rooms.empty],
    List.forall_mem_nil _, fun _ => trivial⟩
  append {a b a' b'} h h' := by
    refine ⟨congrArg₂ (· ++ ·) h.sites h'.sites, fun σ => ?_, fun σ hσ => ?_, fun hq => ⟨h.closed ?_, h'.closed ?_⟩⟩
    · show σ ∈ a.tops ++ a'.tops ↔ σ ∈ b.vars ++ b'.vars ∨ σ ∈ b.heads ++ b'.heads
      simp only [List.mem_append, h.tops, h'.tops]
      tauto
    · rcases List.mem_append.1 hσ with hl | hl
      · exact List.mem_append_left _ (h.lists σ hl)
      · exact List.mem_append_right _ (h'.lists σ hl)
    · exact ⟨fun room hr => hq.rooms room (List.mem_append_left _ hr),
        fun σ hσ => hq.loose σ (List.mem_append_left _ hσ),
        fun σ hσ => hq.fixed σ (List.mem_append_left _ hσ), fun σ hσ => hq.stray σ (List.mem_append_left _ hσ)⟩
    · exact ⟨fun room hr => hq.rooms room (List.mem_append_right _ hr),
        fun σ hσ => hq.loose σ (List.mem_append_right _ hσ),
        fun σ hσ => hq.fixed σ (List.mem_append_right _ hσ), fun σ hσ => hq.stray σ (List.mem_append_right _ hσ)⟩
  ident role id := by
    refine ⟨?_, fun σ => ?_, List.forall_mem_nil _, fun _ => trivial⟩
    · cases role <;> rfl
    · cases role <;> simp [Watch.fold, Uses.ident, Fold.rooms, Rooms.empty]
  expr _ _ _ _ h := h.close
  stmt x _ _ _ h := h.stmt x
  declarator kind site target init h := by
    refine ⟨(Uses.declarator_sites (.mk site target init) _).trans h.sites, fun σ => ?_, h.lists,
      fun hq => h.shut_closed { hq with }⟩
    show σ ∈ [site] ↔ σ ∈ [site] ∨ σ ∈ []
    simp
  element kind site target init h := ⟨h.sites, h.shut.tops, h.lists, fun hq => h.shut_closed hq⟩
  funcDecl f h := h.named f.name
  clsDecl c h := h.named c.name
  property _ _ _ h := h
  hole := ⟨rfl, fun σ => by simp [Watch.fold, Uses.empty, Fold.rooms, Rooms.empty],
    List.forall_mem_nil _, fun _ => trivial⟩

/-- What is listed or stands alone is counted among the declarations of a piece. -/
def Counted (b : Rooms) (c : Sites) : Prop := ∀ σ,
  b.listed.count σ + b.vars.count σ + b.heads.count σ + b.loose.count σ ≤ (c.decls.map Prod.fst).count σ

theorem Counted.close {c e : Sites} (h : Counted b c) (hc : e.decls = c.decls) : Counted b.close e := fun σ => by
  have hσ := h σ
  rw [hc]
  simp only [Rooms.close, List.count_append, List.count_nil]
  omega

theorem Counted.shut {c e : Sites} (h : Counted b c) (hc : e.decls = c.decls) : Counted b.shut e := fun σ => by
  have hσ := h σ
  rw [hc]
  simp only [Rooms.shut, List.count_append, List.count_nil]
  omega

theorem Counted.stmt {c : Sites} (h : Counted b c) (x : Stmt) : Counted (b.stmt x) c := by
  cases x with
  | exportDecl | exportDefault => exact h.shut rfl
  | decl | func | cls => exact h
  | block | switch | tryCatch | tryFinally => exact h.close rfl
  | _ => exact h.shut rfl

theorem Counted.named {c : Sites} (h : Counted b c) (name : Option Ident) :
    Counted (b.named name) (c.declareName name) := by
  cases name with
  | none => exact h.close rfl
  | some id =>
    intro σ
    have hσ := h.close (e := c) rfl σ
    simp only [Rooms.named, Rooms.close, Sites.declareName, Option.toList_some, List.map_cons, List.map_nil,
      List.count_cons, List.count_nil] at hσ ⊢
    omega

theorem Counted.declarator {c : Sites} (h : Counted b c) (site : Site) (names : List Site) :
    Counted { b.shut with vars := [site] } { c with decls := (site, names) :: c.decls } := fun σ => by
  have hσ := h σ
  simp only [Rooms.shut, List.map_cons, List.count_cons, List.count_append, List.count_nil] at hσ ⊢
  omega

theorem counted_relates : Fold.rooms.Relates Fold.sites Counted where
  empty σ := by simp [Fold.rooms, Rooms.empty]
  append {a b a' b'} h h' σ := by
    have hσ := h σ
    have hσ' := h' σ
    show (a.listed ++ a'.listed).count σ + (a.vars ++ a'.vars).count σ + (a.heads ++ a'.heads).count σ +
      (a.loose ++ a'.loose).count σ ≤ ((b.decls ++ b'.decls).map Prod.fst).count σ
    simp only [List.map_append, List.count_append]
    omega
  ident role id σ := by
    cases role <;> simp [Fold.rooms, Rooms.empty]
  expr _ _ _ _ h := h.close rfl
  stmt x _ _ _ h := h.stmt x
  declarator kind site target init h := h.declarator site _
  element kind site target init h := h.shut rfl
  funcDecl f h := h.named f.name
  clsDecl c h := h.named c.name
  property _ _ _ h := h
  hole σ := by simp [Fold.rooms, Rooms.empty]

end Rooms

end Deadwood
