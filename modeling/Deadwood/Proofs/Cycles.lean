import Deadwood.Proofs.Components
import Deadwood.Proofs.ParsedJumps
import Deadwood.Proofs.References

/-!
# Dead cycles

The bindings on dead cycles are those on cycles of mentions that nothing outside of them mentions.
-/

namespace Deadwood

namespace Mention

/-- The function or class that is bound to `a` mentions `b`. -/
def Leads (ms : List Mention) (a b : BindingId) : Prop := (⟨b, some a⟩ : Mention) ∈ ms

/-- Functions and classes that mention one another lead from `a` to `b`. -/
def Reaches (ms : List Mention) : BindingId → BindingId → Prop := Relation.ReflTransGen (Leads ms)

/-- Two bindings are in the same component. -/
def Together (ms : List Mention) (a b : BindingId) : Prop := Reaches ms a b ∧ Reaches ms b a

/-- A binding is on a cycle, and nothing outside of its component mentions a member of it. -/
structure OnClosedCycle (ms : List Mention) (info : Info) (b : BindingId) : Prop where
  cycle : Relation.TransGen (Leads ms) b b
  hidden : ∀ c, Together ms b c → ∃ d, info.binding? c = some d ∧ d.isExported = false
  closed : ∀ c, Together ms b c → ∀ m ∈ ms, m.target = c → ∃ a, m.source = some a ∧ Together ms b a

variable {ms : List Mention} {info : Info} {a b : BindingId}

theorem Together.refl (b : BindingId) : Together ms b b := ⟨.refl, .refl⟩

/-- Whatever leads to a closed cycle is on it. -/
theorem OnClosedCycle.of_reaches (h : OnClosedCycle ms info b) (hab : Reaches ms a b) : Reaches ms b a := by
  refine Relation.ReflTransGen.head_induction_on hab .refl fun {x y} hxy hyb hby => ?_
  obtain ⟨c, hc, hbc⟩ := h.closed y ⟨hby, hyb⟩ _ hxy rfl
  cases hc
  exact hbc.1

/-- Nothing outside of all functions and classes leads to a closed cycle. -/
theorem OnClosedCycle.unreached (h : OnClosedCycle ms info b) {m : Mention} (hm : m ∈ ms) (hs : m.source = none) :
    ¬ Reaches ms m.target b := by
  intro hmb
  obtain ⟨a, ha, -⟩ := h.closed m.target ⟨h.of_reaches hmb, hmb⟩ m hm rfl
  rw [hs] at ha
  cases ha

end Mention

namespace Usage

open Mention

variable {ms : List Mention} {u : Usage} {info : Info} {b : BindingId}

/-- A component is a cycle if it has more than one member or its member mentions itself. -/
theorem isDeadCycle_iff (h : Adds ms .empty u) {c : List BindingId} (hnodup : c.Nodup) (hb : b ∈ c)
    (hc : ∀ x, x ∈ c ↔ Together ms b x) :
    u.isDeadCycle info c ↔ Relation.TransGen (Leads ms) b b ∧ ∀ x ∈ c, u.isClosed info c x := by
  unfold isDeadCycle
  rw [Bool.and_eq_true, List.all_eq_true]
  refine and_congr ?_ Iff.rfl
  cases c with
  | nil => cases hb
  | cons a rest =>
    cases rest with
    | nil =>
      cases List.mem_singleton.1 hb
      rw [← (h.wellFormed .empty).leads_iff_weight?, leads_iff h]
      refine ⟨fun hbb => .single hbb, fun hbb => ?_⟩
      obtain ⟨x, hbx, hxb⟩ := Relation.TransGen.head'_iff.1 hbb
      cases List.mem_singleton.1 ((hc x).2 ⟨.single hbx, hxb⟩)
      exact hbx
    | cons a' rest =>
      refine iff_of_true rfl ?_
      obtain ⟨x, hx, hxb⟩ : ∃ x ∈ a :: a' :: rest, x ≠ b := by
        by_cases hab : a = b
        · refine ⟨a', by simp, fun ha' => ?_⟩
          have haa' : a ≠ a' := fun h => (List.nodup_cons.1 hnodup).1 (h ▸ List.mem_cons_self)
          exact haa' (hab.trans ha'.symm)
        · exact ⟨a, List.mem_cons_self, hab⟩
      obtain ⟨hbx, hxb'⟩ := (hc x).1 hx
      rcases Relation.reflTransGen_iff_eq_or_transGen.1 hbx with rfl | hbx
      · exact absurd rfl hxb
      · exact hbx.trans_left hxb'

/-- The dead cycles of a usage are the closed cycles of the mentions it adds up, where they are all the
references that were counted. -/
theorem mem_deadCycles_iff (h : Adds ms .empty u)
    (href : ∀ b d, info.binding? b = some d → d.references = ms.countP (·.target = b)) :
    b ∈ u.deadCycles info ↔ OnClosedCycle ms info b := by
  have hg : u.graph.WellFormed := h.wellFormed .empty
  have hleads : u.graph.Leads = Leads ms := funext₂ fun _ _ => propext (leads_iff h)
  have hreaches : u.graph.Reaches = Reaches ms := congrArg Relation.ReflTransGen hleads
  have hmem {c : List BindingId} (hc : c ∈ u.graph.components) (hb : b ∈ c) (x : BindingId) :
      x ∈ c ↔ Together ms b x := by
    rw [hg.mem_component_iff hc hb, hreaches, Together]
  have hdead {c : List BindingId} (hc : c ∈ u.graph.components) (hb : b ∈ c) :
      u.isDeadCycle info c ↔ OnClosedCycle ms info b := by
    have hnodup : c.Nodup := (List.nodup_flatten.1 hg.components_nodup).1 c hc
    rw [isDeadCycle_iff h hnodup hb (hmem hc hb)]
    simp only [isClosed_iff h (href _), hmem hc hb]
    constructor
    · rintro ⟨hcycle, hall⟩
      refine ⟨hcycle, fun x hx => (hall x hx).1, fun x hx m hm hmx => ?_⟩
      obtain ⟨a, ha, hma⟩ := (hall x hx).2 m hm hmx
      exact ⟨a, hma, ha⟩
    · rintro ⟨hcycle, hhidden, hclosed⟩
      refine ⟨hcycle, fun x hx => ⟨hhidden x hx, fun m hm hmx => ?_⟩⟩
      obtain ⟨a, hma, ha⟩ := hclosed x hx m hm hmx
      exact ⟨a, ha, hma⟩
  rw [deadCycles, List.mem_flatten]
  constructor
  · rintro ⟨c, hc, hb⟩
    obtain ⟨hc, hcycle⟩ := List.mem_filter.1 hc
    exact (hdead hc hb).1 hcycle
  · intro hcycle
    -- What is on a cycle is a node, so it is in a component.
    obtain ⟨x, -, hxb⟩ := Relation.TransGen.tail'_iff.1 hcycle.cycle
    obtain ⟨c, hc, hb⟩ := List.mem_flatten.1 (hg.mem_components.2 (hg.target_mem x b (hleads ▸ hxb)))
    exact ⟨c, List.mem_filter.2 ⟨hc, (hdead hc hb).2 hcycle⟩, hb⟩

end Usage

/-- Where all identifiers have the site zero, so have all that are collected. -/
theorem Fold.stamps_sound :
    Fold.stamps.Relates (Fold.sound fun id => id.site = 0) fun a P => ∀ c, P c → ∀ x ∈ a.live ++ a.idle, x = 0 where
  empty _ _ := nofun
  append {a P a' P'} h h' c hP x hx := by
    have hx : x ∈ (a.live ++ a'.live) ++ (a.idle ++ a'.idle) := hx
    simp only [List.mem_append] at hx
    rcases hx with (hx | hx) | (hx | hx)
    · exact h c hP.1 x (List.mem_append_left _ hx)
    · exact h' c hP.2 x (List.mem_append_left _ hx)
    · exact h c hP.1 x (List.mem_append_right _ hx)
    · exact h' c hP.2 x (List.mem_append_right _ hx)
  ident role id c hid x hx := by
    have hx : x = id.site := by cases role <;> simpa [Fold.stamps] using hx
    exact hx.trans hid
  expr _ _ _ _ h _ hP := h _ hP
  stmt t a P _ h c hP x hx := by
    have hx : x ∈ a.live ++ a.idle := by
      simp only [Fold.stamps] at hx
      split at hx
      · exact hx
      · exact hx
    exact h _ hP.2 x hx
  declarator _ _ _ _ h := h
  element _ _ _ _ h := h
  funcDecl _ h _ hP := h _ hP
  clsDecl _ h _ hP := h _ hP.2
  property _ _ _ h := h
  hole _ _ := nofun

/-- The parser numbers no identifier. -/
theorem Program.stamps_of_parse {text : String} {p : Program} (h : Program.parse text = .ok p) :
    ∀ x ∈ (p.fold Fold.stamps).idle, x = 0 := fun x hx =>
  Program.fold_related Fold.stamps_sound p _ (Program.sound_of_parse (fun _ => rfl) h) x (List.mem_append_right _ hx)

/-- The bindings that are found on dead cycles of a program are those on closed cycles: on cycles of functions
and classes that mention one another, where no member of the component is exported or mentioned from outside of
the component.  So neither a mention outside of all functions and classes nor a binding that is not in the
component leads to any of them. -/
theorem Program.mem_deadCycles {text : String} {p q : Program} {info : Info} {u : Usage}
    (hp : Program.parse text = .ok p) (hq : p.resolve = (q, info)) (hu : q.usage? info = some u) (b : BindingId) :
    let ms := q.mentions info
    (b ∈ u.deadCycles info ↔ Mention.OnClosedCycle ms info b) ∧
      (b ∈ u.deadCycles info →
        (∀ m ∈ ms, m.source = none → ¬ Mention.Reaches ms m.target b) ∧
          ∀ a, Mention.Reaches ms a b → Mention.Together ms a b) := by
  intro ms
  have hiff : b ∈ u.deadCycles info ↔ Mention.OnClosedCycle ms info b :=
    Usage.mem_deadCycles_iff (Program.usage_adds hu) fun _ _ hd =>
      Program.resolve_references (Program.stamps_of_parse hp) hq hd
  refine ⟨hiff, fun hb => ?_⟩
  have hcycle := hiff.1 hb
  exact ⟨fun m hm hs => hcycle.unreached hm hs, fun a hab => ⟨hab, hcycle.of_reaches hab⟩⟩

/-- Two functions that call each other, and one that calls itself and is called from outside. -/
theorem Program.mem_deadCycles_sample : ∃ p u,
    Program.parse "function f() \x7b g() \x7d function g() \x7b f() \x7d function h() \x7b h() \x7d h()" = .ok p ∧
      p.resolve.1.usage? p.resolve.2 = some u ∧ u.deadCycles p.resolve.2 = [1, 0] ∧
      Mention.OnClosedCycle (p.resolve.1.mentions p.resolve.2) p.resolve.2 0 ∧
      ¬ Mention.OnClosedCycle (p.resolve.1.mentions p.resolve.2) p.resolve.2 2 := by
  generalize hr : Program.parse _ = r
  have hrun : (r.toOption.bind fun p => (p.resolve.1.usage? p.resolve.2).map fun u => u.deadCycles p.resolve.2) =
      some [1, 0] := by
    subst hr
    decide +kernel
  obtain ⟨p, hp, hu⟩ := Option.bind_eq_some_iff.1 hrun
  obtain ⟨u, hu, hdead⟩ := Option.map_eq_some_iff.1 hu
  cases r with
  | error faults => cases hp
  | ok p' =>
    cases hp
    have hq : p.resolve = (p.resolve.1, p.resolve.2) := rfl
    refine ⟨p, u, rfl, hu, hdead, ?_, fun h => ?_⟩
    · exact (Program.mem_deadCycles hr hq hu 0).1.1 (hdead ▸ by decide)
    · have hmem := (Program.mem_deadCycles hr hq hu 2).1.2 h
      rw [hdead] at hmem
      exact absurd hmem (by decide)

end Deadwood
