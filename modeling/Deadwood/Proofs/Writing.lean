import Deadwood.Cli.Run
import Deadwood.Proofs.Tables
import Mathlib.Data.List.Basic

/-!
# Writing files

What is written to a path is read from it, and from no other place.  Writing over a file changes neither the
directories nor where a path leads, so of several files that are written one after the other each can be read
as it was written, if those at one place are written alike.
-/

namespace Deadwood

namespace FileTree

variable {t u : FileTree} {dir path content : String} {place : List String}

/-! ### Places -/

theorem entry?_put (h : place ≠ []) (c : Option String) (q : List String) :
    entry? (t.put place c) q = if q = place then some c else t.entry? q := by
  unfold entry?
  by_cases hnil : q = []
  · subst hnil
    rw [if_neg (Ne.symm h)]
    rfl
  · have hempty : q.isEmpty = false := by simpa using hnil
    simp only [hempty]
    show List.lookup q (t.entries.filter (·.1 ≠ place) ++ [(place, c)]) =
      if q = place then some c else List.lookup q t.entries
    rw [List.lookup_append, lookup_filter_ne]
    by_cases hq : q = place
    · simp [hq]
    · simp [hq, List.lookup_cons, beq_eq_false_iff_ne.2 hq]

/-- The same places are in use, and for the same: files or directories. -/
def Alike (t u : FileTree) : Prop := ∀ q, (u.entry? q).map Option.isSome = (t.entry? q).map Option.isSome

theorem Alike.refl (t : FileTree) : t.Alike t := fun _ => rfl

theorem Alike.trans {v : FileTree} (h : t.Alike u) (h' : u.Alike v) : t.Alike v :=
  fun q => (h' q).trans (h q)

namespace Alike

variable (h : t.Alike u)

include h

theorem isSome (q : List String) : (u.entry? q).isSome = (t.entry? q).isSome := by
  have hq := congrArg Option.isSome (h q)
  rwa [Option.isSome_map, Option.isSome_map] at hq

theorem isDirectory (q : List String) : u.isDirectory q = t.isDirectory q := by
  have hq := h q
  unfold FileTree.isDirectory
  cases he : t.entry? q with
  | none =>
    rw [he] at hq
    rw [Option.map_eq_none_iff.1 hq]
  | some c =>
    rw [he] at hq
    obtain ⟨c', hc', heq⟩ := Option.map_eq_some_iff.1 hq
    rw [hc']
    cases c <;> cases c' <;> first | rfl | cases heq

theorem step (here : List String) (part : String) : u.step here part = t.step here part := by
  unfold FileTree.step
  rw [h.isDirectory, h.isSome]

theorem step_eq : u.step = t.step := by
  funext here part
  exact h.step here part

/-- A path leads to the same place. -/
theorem resolve (dir path : String) : u.resolve dir path = t.resolve dir path := by
  unfold FileTree.resolve
  rw [h.step_eq]
  simp only [h.isDirectory]

end Alike

/-! ### Reading and writing -/

theorem read_eq_ok : t.read dir path = .ok content ↔
    ∃ place, t.resolve dir path = .ok place ∧ t.entry? place = some (some content) := by
  unfold read
  cases hr : t.resolve dir path with
  | error e => simp
  | ok place =>
    cases he : t.entry? place with
    | none => simp [he]
    | some c => cases c <;> simp [he]

theorem foldlM_of_resolve (h : t.resolve dir path = .ok place) :
    (Path.parts path).foldlM t.step (start dir path) = .ok place := by
  unfold resolve at h
  by_cases hpath : path = ""
  · rw [if_pos hpath] at h
    cases h
  · rw [if_neg hpath] at h
    cases hfold : (Path.parts path).foldlM t.step (start dir path) with
    | error cause =>
      rw [hfold] at h
      cases h
    | ok here =>
      rw [hfold] at h
      by_cases hslash : (Path.endsWithSlash path && !t.isDirectory here) = true
      · exact absurd h (by simp [hslash, bind, Except.bind])
      · simp only [bind, Except.bind, hslash] at h
        cases h
        rfl

/-- A target is a name in a directory that the path leads through. -/
theorem target_eq_ok (h : t.target dir path = .ok place) : ∃ (here : List String) (name : String),
    (Path.parts path).getLast? = some name ∧ (Path.parts path).dropLast.foldlM t.step (start dir path) = .ok here ∧
      t.isDirectory here = true ∧ name ≠ "." ∧ name ≠ ".." ∧ place = here ++ [name] := by
  unfold target at h
  cases hname : (Path.parts path).getLast? with
  | none =>
    rw [hname] at h
    cases h
  | some name =>
    rw [hname] at h
    cases hhere : (Path.parts path).dropLast.foldlM t.step (start dir path) with
    | error cause =>
      rw [hhere] at h
      cases h
    | ok here =>
      rw [hhere] at h
      simp only [bind, Except.bind] at h
      by_cases hdirectory : t.isDirectory here = true
      · simp only [hdirectory, Bool.not_true, Bool.false_eq_true, if_false] at h
        by_cases hdots : name = "." ∨ name = ".."
        · rw [if_pos (by simpa using hdots)] at h
          cases h
        · rw [if_neg (by simpa using hdots)] at h
          rw [not_or] at hdots
          refine ⟨here, name, rfl, rfl, hdirectory, hdots.1, hdots.2, ?_⟩
          split at h
          · cases h
          · split at h
            · cases h
            · cases h
              rfl
          · split at h
            · cases h
            · cases h
              rfl
      · simp only [hdirectory, Bool.not_false, if_true] at h
        cases h

/-- What is written over a file goes to the place it is read from. -/
theorem resolve_of_target (hresolve : t.resolve dir path = .ok place) {place' : List String}
    (htarget : t.target dir path = .ok place') : place' = place ∧ place ≠ [] := by
  obtain ⟨here, name, hname, hhere, hdirectory, hdot, hdots, rfl⟩ := target_eq_ok htarget
  have hparts : Path.parts path = (Path.parts path).dropLast ++ [name] :=
    (List.dropLast_append_getLast? name hname).symm
  have hfold := foldlM_of_resolve hresolve
  rw [hparts, List.foldlM_append, hhere] at hfold
  have hstep : t.step here name = .ok place := by
    rw [← bind_pure (t.step here name)]
    exact hfold
  unfold step at hstep
  simp only [hdirectory, hdot, hdots, Bool.not_true, Bool.false_eq_true, if_false] at hstep
  split at hstep
  · cases hstep
    exact ⟨rfl, by simp⟩
  · cases hstep

/-- What can be read can still be read in a tree that is alike. -/
theorem Alike.read (h : t.Alike u) {text : String} (hread : t.read dir path = .ok text) :
    ∃ text', u.read dir path = .ok text' := by
  obtain ⟨place, hresolve, hentry⟩ := read_eq_ok.1 hread
  have hplace := h place
  rw [hentry] at hplace
  obtain ⟨c, hc, hsome⟩ := Option.map_eq_some_iff.1 hplace
  obtain ⟨text', rfl⟩ := Option.isSome_iff_exists.1 hsome
  exact ⟨text', read_eq_ok.2 ⟨place, (h.resolve dir path).trans hresolve, hc⟩⟩

/-- Writing over a file. -/
theorem write_eq_ok {text : String} (hread : t.read dir path = .ok text) (hwrite : t.write dir path content = .ok u) :
    ∃ place, t.resolve dir path = .ok place ∧ t.Alike u ∧
      ∀ q, u.entry? q = if q = place then some (some content) else t.entry? q := by
  obtain ⟨place', hresolve, hentry⟩ := read_eq_ok.1 hread
  unfold write at hwrite
  cases htarget : t.target dir path with
  | error cause =>
    rw [htarget] at hwrite
    cases hwrite
  | ok place =>
    rw [htarget] at hwrite
    cases hwrite
    obtain ⟨rfl, hne⟩ := resolve_of_target hresolve htarget
    refine ⟨place, hresolve, fun q => ?_, entry?_put hne (some content)⟩
    rw [entry?_put hne]
    split
    · next hq => rw [hq, hentry]; rfl
    · rfl

/-! ### Writing several files -/

/-- Writes files one after the other, up to the first that cannot be written. -/
def writeAll (dir : String) : List (String × String) → FileTree → Except Cli.Failure Unit × FileTree
  | [], t => (.ok (), t)
  | (path, content) :: files, t =>
    match t.write dir path content with
    | .ok u => u.writeAll dir files
    | .error e => (.error (.error ("write " ++ path ++ ": " ++ e.message)), t)

variable {files : List (String × String)}

/-- Files can be written or not, but there is no crash. -/
theorem writeAll_ne_crash : (t.writeAll dir files).1 ≠ .error .crash := by
  induction files generalizing t with
  | nil => nofun
  | cons file files ih =>
    unfold writeAll
    cases t.write dir file.1 file.2 with
    | error e => nofun
    | ok u => exact ih

/-- The first of the files is written, and the others after it. -/
theorem writeAll_cons_eq_ok {file : String × String} (h : t.writeAll dir (file :: files) = (.ok (), u)) :
    ∃ t₁, t.write dir file.1 file.2 = .ok t₁ ∧ t₁.writeAll dir files = (.ok (), u) := by
  unfold writeAll at h
  cases hwrite : t.write dir file.1 file.2 with
  | error e =>
    rw [hwrite] at h
    cases h
  | ok t₁ =>
    rw [hwrite] at h
    exact ⟨t₁, rfl, h⟩

/-- The directories, and the places that paths lead to, are the same after files have been written over. -/
theorem alike_of_writeAll (hread : ∀ file ∈ files, ∃ text, t.read dir file.1 = .ok text)
    (h : t.writeAll dir files = (.ok (), u)) : t.Alike u := by
  induction files generalizing t with
  | nil =>
    cases h
    exact .refl _
  | cons file files ih =>
    obtain ⟨t₁, hwrite, h⟩ := writeAll_cons_eq_ok h
    obtain ⟨text, htext⟩ := hread file (List.mem_cons_self ..)
    obtain ⟨place, -, halike, -⟩ := write_eq_ok htext hwrite
    refine halike.trans (ih (fun file' hfile' => ?_) h)
    obtain ⟨text', htext'⟩ := hread file' (List.mem_cons_of_mem _ hfile')
    exact halike.read htext'

/-- After files have been written over, a place holds what all the files that lead to it were to hold. -/
theorem entry?_of_writeAll (hread : ∀ file ∈ files, ∃ text, t.read dir file.1 = .ok text)
    (h : t.writeAll dir files = (.ok (), u)) {c : Option String}
    (hsame : ∀ file ∈ files, t.resolve dir file.1 = .ok place → some file.2 = c)
    (hplace : t.entry? place = some c ∨ ∃ file ∈ files, t.resolve dir file.1 = .ok place) :
    u.entry? place = some c := by
  induction files generalizing t with
  | nil =>
    cases h
    obtain hentry | ⟨file, hfile, -⟩ := hplace
    · exact hentry
    · cases hfile
  | cons file files ih =>
    obtain ⟨t₁, hwrite, h⟩ := writeAll_cons_eq_ok h
    obtain ⟨text, htext⟩ := hread file (List.mem_cons_self ..)
    obtain ⟨place₁, hresolve, halike, hentry⟩ := write_eq_ok htext hwrite
    refine ih (fun file' hfile' => ?_) h (fun file' hfile' => ?_) ?_
    · obtain ⟨text', htext'⟩ := hread file' (List.mem_cons_of_mem _ hfile')
      exact halike.read htext'
    · rw [halike.resolve]
      exact hsame file' (List.mem_cons_of_mem _ hfile')
    · by_cases hq : place = place₁
      · refine .inl ?_
        subst hq
        rw [hentry, if_pos rfl, hsame file (List.mem_cons_self ..) hresolve]
      · obtain hold | ⟨file', hfile', hresolve'⟩ := hplace
        · refine .inl ?_
          rw [hentry, if_neg hq, hold]
        · rcases List.mem_cons.1 hfile' with rfl | hfile'
          · rw [hresolve] at hresolve'
            cases hresolve'
            exact absurd rfl hq
          · refine .inr ⟨file', hfile', ?_⟩
            rw [halike.resolve, hresolve']

/-- Files that are written over can be read as they were written, if those at one place are written alike. -/
theorem read_of_writeAll (hread : ∀ file ∈ files, ∃ text, t.read dir file.1 = .ok text)
    (hsame : ∀ file ∈ files, ∀ file' ∈ files, t.read dir file.1 = t.read dir file'.1 → file.2 = file'.2)
    (h : t.writeAll dir files = (.ok (), u)) {file : String × String} (hfile : file ∈ files) :
    u.read dir file.1 = .ok file.2 := by
  obtain ⟨text, htext⟩ := hread file hfile
  obtain ⟨place, hresolve, hentry⟩ := read_eq_ok.1 htext
  refine read_eq_ok.2 ⟨place, ((alike_of_writeAll hread h).resolve ..).trans hresolve, ?_⟩
  refine entry?_of_writeAll hread h (fun file' hfile' hresolve' => ?_) (.inr ⟨file, hfile, hresolve⟩)
  have htext' : t.read dir file'.1 = .ok text := read_eq_ok.2 ⟨place, hresolve', hentry⟩
  rw [hsame file' hfile' file hfile (htext'.trans htext.symm)]

end FileTree

end Deadwood
