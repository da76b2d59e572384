import TreePath.FileSystem
import Mathlib.Data.List.Basic

/-! # Paths of files

Where a path leads is told by its steps alone, but it is found there only if directories stand at all
its waypoints. Missing ones can be made. That changes no file, but a path may lead to a file then: if
a step leads up from where no directory was, what stands behind it was there already.

* `Step.waypoints`, `FileSystem.target`: where steps lead through, and where a path leads.
* `FileSystem.stateAt_of_hasParents` and `FileSystem.stateAt_of_not_hasParents`: what stands at a path.
* `FileSystem.Makes`: what making directories can change, and `FileSystem.makeDirectories_cons`: what
  one step of it does.
* `FileSystem.IsWritable`: no file stands on the way to a file, and no directory in its place.
* `FileSystem.IsWritable.stateAt_makeParents_eq`: making the way to a file does not change what stands
  at its path, unless a step leads up from where no directory was.
* `FileSystem.isWritable_iff`: a file is written if, and only if, it can be. -/

namespace TreePath

/-! ### Waypoints -/

/-- The locations that steps lead through, the first and the last among them, whatever stands
there. -/
def Step.waypoints (location : Location) : List Step → List Location
  | [] => [location]
  | step :: steps => location :: waypoints (step.lead location) steps

namespace Step

theorem mem_waypoints_self (location : Location) (steps : List Step) :
    location ∈ waypoints location steps := by
  cases steps <;> exact List.mem_cons_self

theorem foldl_lead_mem_waypoints (steps : List Step) (location : Location) :
    steps.foldl lead location ∈ waypoints location steps := by
  induction steps generalizing location with
  | nil => exact List.mem_cons_self
  | cons step steps ih => exact List.mem_cons_of_mem _ (ih (step.lead location))

/-- Without a step up, a way only goes down. -/
theorem suffix_of_mem_waypoints {steps : List Step} (hup : .up ∉ steps) {location l : Location}
    (hl : l ∈ waypoints location steps) : l <:+ steps.foldl lead location := by
  induction steps generalizing location l with
  | nil =>
    rw [List.mem_singleton.mp hl]
    exact List.suffix_rfl
  | cons step steps ih =>
    have hstep : .up ≠ step := fun h => hup (h ▸ List.mem_cons_self)
    have hsteps : .up ∉ steps := fun h => hup (List.mem_cons_of_mem step h)
    rw [List.foldl_cons]
    rcases List.mem_cons.mp hl with rfl | hl
    · have hdown : l <:+ step.lead l := by
        cases step with
        | up => exact absurd rfl hstep
        | into name => exact List.suffix_cons name l
      exact hdown.trans (ih hsteps (mem_waypoints_self (step.lead l) steps))
    · exact ih hsteps hl

end Step

namespace FilePath

/-- The path ends in a name, and nothing behind it asks for a directory. -/
def NamesFile (path : String) : Prop :=
  (∃ name, fileName? path = some name) ∧ isDirectoryPath path = false

theorem NamesFile.exists_steps_eq {path : String} (h : NamesFile path) :
    ∃ name, steps path = parentSteps path ++ [.into name] := by
  obtain ⟨⟨name, hname⟩, -⟩ := h
  unfold fileName? at hname
  split at hname
  · next last hlast => exact ⟨last, (List.dropLast_append_getLast? _ hlast).symm⟩
  · cases hname

theorem NamesFile.ne_empty {path : String} (h : NamesFile path) : path ≠ "" := by
  rintro rfl
  obtain ⟨⟨name, hname⟩, -⟩ := h
  have hnone : fileName? "" = none := rfl
  rw [hnone] at hname
  cases hname

end FilePath

namespace FileSystem

variable {fs fs' : FileSystem} {path : String}

/-- The waypoints to the directory that a path names something in. -/
def waypoints (fs : FileSystem) (path : String) : List Location :=
  Step.waypoints (fs.start path) (FilePath.parentSteps path)

/-- Where a path leads, whatever stands on the way. -/
def target (fs : FileSystem) (path : String) : Location :=
  (FilePath.steps path).foldl Step.lead (fs.start path)

/-- The directory that a path names something in is there, and so is the way to it. -/
def HasParents (fs : FileSystem) (path : String) : Prop :=
  ∀ l ∈ fs.waypoints path, fs.lookup l = some .directory

theorem lookup_start (fs : FileSystem) (path : String) :
    fs.lookup (fs.start path) = some .directory := by
  unfold start
  split_ifs
  · exact fs.lookup_root
  · exact fs.lookup_here

section

variable (h : fs'.here = fs.here) (path : String)

include h

theorem start_eq_of_here : fs'.start path = fs.start path := by rw [start, start, h]

theorem waypoints_eq_of_here : fs'.waypoints path = fs.waypoints path := by
  rw [waypoints, waypoints, start_eq_of_here h]

theorem target_eq_of_here : fs'.target path = fs.target path := by
  rw [target, target, start_eq_of_here h]

end

theorem lookup_tail {location : Location} (h : fs.lookup location = some .directory) :
    fs.lookup location.tail = some .directory := by
  cases location with
  | nil => exact h
  | cons name location =>
    have hsome : fs.lookup (name :: location) ≠ none := by
      rw [h]
      exact Option.some_ne_none _
    exact fs.lookup_above hsome

/-- Nothing stands below where nothing stands. -/
theorem lookup_eq_none_of_suffix {l l' : Location} (h : l <:+ l') (hl : fs.lookup l = none) :
    fs.lookup l' = none := by
  obtain ⟨names, rfl⟩ := h
  induction names with
  | nil => exact hl
  | cons name names ih =>
    by_contra hsome
    have habove : fs.lookup (names ++ l) = some .directory := fs.lookup_above hsome
    rw [ih] at habove
    cases habove

theorem target_eq_cons {name : String}
    (h : FilePath.steps path = FilePath.parentSteps path ++ [.into name]) :
    fs.target path = name :: (FilePath.parentSteps path).foldl Step.lead (fs.start path) := by
  rw [target, h, List.foldl_append]
  rfl

/-- A path without a step up leads below its waypoints. -/
theorem suffix_target_of_mem_waypoints (h : FilePath.NamesFile path)
    (hup : .up ∉ FilePath.steps path) {l : Location} (hl : l ∈ fs.waypoints path) :
    l <:+ fs.target path := by
  obtain ⟨name, hsteps⟩ := h.exists_steps_eq
  have hdown : .up ∉ FilePath.parentSteps path := fun hmem =>
    hup (hsteps ▸ List.mem_append_left _ hmem)
  rw [target_eq_cons hsteps]
  exact (Step.suffix_of_mem_waypoints hdown hl).trans (List.suffix_cons name _)

/-! ### What stands at a path -/

/-- Steps are followed if directories stand at all waypoints in front of the last. -/
theorem follow?_concat_eq_some_iff {steps : List Step} {step : Step} {location l : Location} :
    fs.follow? location (steps ++ [step]) = some l ↔
      (∀ l ∈ Step.waypoints location steps, fs.lookup l = some .directory) ∧
        l = (steps ++ [step]).foldl Step.lead location := by
  induction steps generalizing location with
  | nil =>
    simp only [List.nil_append, follow?, Step.waypoints, List.mem_singleton, forall_eq,
      List.foldl_cons, List.foldl_nil]
    by_cases hlocation : fs.lookup location = some .directory
    · rw [if_pos hlocation, Option.some.injEq, and_iff_right hlocation, eq_comm]
    · simp [hlocation]
  | cons first steps ih =>
    rw [List.cons_append, follow?, Step.waypoints, List.forall_mem_cons, List.foldl_cons]
    by_cases hlocation : fs.lookup location = some .directory
    · rw [if_pos hlocation, ih, and_iff_right hlocation]
    · simp [hlocation]

theorem locate?_eq_some_iff (h : FilePath.NamesFile path) {l : Location} :
    fs.locate? path = some l ↔ fs.HasParents path ∧ l = fs.target path := by
  obtain ⟨name, hsteps⟩ := h.exists_steps_eq
  rw [locate?, if_neg h.ne_empty, target, hsteps, follow?_concat_eq_some_iff]
  rfl

theorem stateAt_of_hasParents (h : FilePath.NamesFile path) (hparents : fs.HasParents path) :
    fs.stateAt path = .ofEntry (fs.lookup (fs.target path)) := by
  have hlocate : fs.locate? path = some (fs.target path) :=
    (locate?_eq_some_iff h).mpr ⟨hparents, rfl⟩
  simp [stateAt, h.2, hlocate]

theorem stateAt_of_not_hasParents (h : FilePath.NamesFile path) (hparents : ¬ fs.HasParents path) :
    fs.stateAt path = .missing := by
  have hlocate : fs.locate? path = none :=
    Option.eq_none_iff_forall_ne_some.mpr fun l hl =>
      hparents ((locate?_eq_some_iff h).mp hl).1
  simp [stateAt, h.2, hlocate, FileState.ofEntry]

theorem hasParents_of_stateAt_ne (h : FilePath.NamesFile path)
    (hstate : fs.stateAt path ≠ .missing) : fs.HasParents path :=
  by_contra fun hparents => hstate (stateAt_of_not_hasParents h hparents)

/-! ### Writing -/

/-- A file is written where a path leads if its directory is there and it does not lead to one. -/
theorem write?_eq_some (h : FilePath.NamesFile path) (hparents : fs.HasParents path)
    (hopen : fs.lookup (fs.target path) ≠ some .directory) (bytes : List UInt8) :
    ∃ fs', fs.write? path bytes = some fs' ∧ fs'.here = fs.here ∧
      ∀ l, fs'.lookup l = if l = fs.target path then some (.file bytes) else fs.lookup l := by
  obtain ⟨name, hsteps⟩ := h.exists_steps_eq
  have hlocate : fs.locate? path = some (fs.target path) :=
    (locate?_eq_some_iff h).mpr ⟨hparents, rfl⟩
  have hdirectory := hparents _ (Step.foldl_lead_mem_waypoints (FilePath.parentSteps path) _)
  rw [target_eq_cons hsteps] at hlocate hopen ⊢
  simp only [write?, hlocate]
  rw [dif_pos ⟨hdirectory, hopen⟩, if_neg (Bool.eq_false_iff.mp h.2)]
  exact ⟨_, rfl, rfl, fun _ => rfl⟩

/-- A file that is written stands at its path. -/
theorem exists_write? (h : FilePath.NamesFile path) (hparents : fs.HasParents path)
    (hopen : fs.lookup (fs.target path) ≠ some .directory) (bytes : List UInt8) :
    ∃ fs', fs.write? path bytes = some fs' ∧ fs'.stateAt path = .file bytes := by
  obtain ⟨fs', hwrite, hhere, hentry⟩ := write?_eq_some h hparents hopen bytes
  have hparents' : fs'.HasParents path := by
    intro l hl
    rw [waypoints_eq_of_here hhere] at hl
    have hne : l ≠ fs.target path := by
      rintro rfl
      exact hopen (hparents _ hl)
    rw [hentry, if_neg hne]
    exact hparents l hl
  refine ⟨fs', hwrite, ?_⟩
  rw [stateAt_of_hasParents h hparents', target_eq_of_here hhere, hentry, if_pos rfl]
  rfl

/-- A path that leads to something that is no directory ends in a name. -/
theorem exists_fileName?_of_locate? {l : Location} (hlocate : fs.locate? path = some l)
    (hl : fs.lookup l ≠ some .directory) :
    (∃ name, FilePath.fileName? path = some name) ∧ l = fs.target path := by
  unfold locate? at hlocate
  split_ifs at hlocate
  rcases List.eq_nil_or_concat' (FilePath.steps path) with hsteps | ⟨steps, step, hsteps⟩
  · rw [hsteps, follow?, Option.some.injEq] at hlocate
    exact absurd (hlocate ▸ lookup_start fs path) hl
  rw [hsteps, follow?_concat_eq_some_iff] at hlocate
  obtain ⟨hparents, hlocate⟩ := hlocate
  cases step with
  | up =>
    rw [List.foldl_append] at hlocate
    have hdirectory := lookup_tail (hparents _ (Step.foldl_lead_mem_waypoints steps _))
    exact absurd (hlocate ▸ hdirectory) hl
  | into last =>
    refine ⟨⟨last, ?_⟩, by rw [hlocate, target, hsteps]⟩
    rw [FilePath.fileName?, hsteps, List.getLast?_concat]

/-- Nothing is written but at a path that names a file and does not lead to a directory. -/
theorem namesFile_of_write? {bytes : List UInt8} (h : fs.write? path bytes = some fs') :
    FilePath.NamesFile path ∧ fs.lookup (fs.target path) ≠ some .directory := by
  unfold write? at h
  split at h
  · next name location hlocate =>
    split_ifs at h with hopen hname
    obtain ⟨hfileName, htarget⟩ := exists_fileName?_of_locate? hlocate hopen.2
    exact ⟨⟨hfileName, Bool.eq_false_iff.mpr hname⟩, htarget ▸ hopen.2⟩
  · cases h

/-! ### Making directories -/

/-- Nothing is changed but that directories are made, at some of the locations. -/
structure Makes (fs fs' : FileSystem) (locations : List Location) : Prop where
  here_eq : fs'.here = fs.here
  lookup_eq (l : Location) : fs'.lookup l = fs.lookup l ∨
    l ∈ locations ∧ fs.lookup l = none ∧ fs'.lookup l = some .directory

namespace Makes

variable {locations : List Location}

theorem refl (fs : FileSystem) (locations : List Location) : fs.Makes fs locations :=
  ⟨rfl, fun _ => .inl rfl⟩

theorem trans {fs'' : FileSystem} (h : fs.Makes fs' locations) (h' : fs'.Makes fs'' locations) :
    fs.Makes fs'' locations := by
  refine ⟨h'.here_eq.trans h.here_eq, fun l => ?_⟩
  rcases h'.lookup_eq l with heq' | ⟨hl, hnone, hmade⟩
  · rw [heq']
    exact h.lookup_eq l
  · rcases h.lookup_eq l with heq | ⟨-, -, hmade'⟩
    · exact .inr ⟨hl, heq ▸ hnone, hmade⟩
    · rw [hnone] at hmade'
      cases hmade'

theorem mono {locations' : List Location} (h : fs.Makes fs' locations)
    (hsub : ∀ l ∈ locations, l ∈ locations') : fs.Makes fs' locations' :=
  ⟨h.here_eq, fun l => (h.lookup_eq l).imp id fun ⟨hl, hmade⟩ => ⟨hsub l hl, hmade⟩⟩

/-- No file is made, changed or removed. -/
theorem lookup_eq_file_iff (h : fs.Makes fs' locations) {l : Location} {bytes : List UInt8} :
    fs'.lookup l = some (.file bytes) ↔ fs.lookup l = some (.file bytes) := by
  rcases h.lookup_eq l with heq | ⟨-, hnone, hmade⟩
  · rw [heq]
  · simp [hnone, hmade]

/-- Directories stay. -/
theorem lookup_eq_directory (h : fs.Makes fs' locations) {l : Location}
    (hl : fs.lookup l = some .directory) : fs'.lookup l = some .directory := by
  rcases h.lookup_eq l with heq | ⟨-, -, hmade⟩
  · rw [heq, hl]
  · exact hmade

theorem lookup_eq_of_notMem (h : fs.Makes fs' locations) {l : Location} (hl : l ∉ locations) :
    fs'.lookup l = fs.lookup l :=
  (h.lookup_eq l).resolve_right fun hmade => hl hmade.1

end Makes

theorem makeDirectory?_eq_some {name : String} {location : Location}
    (h : fs.makeDirectory? name location = some fs') :
    fs.Makes fs' [name :: location] ∧ fs'.lookup (name :: location) = some .directory := by
  unfold makeDirectory? at h
  split_ifs at h with hfree
  rw [← Option.some.inj h]
  refine ⟨⟨rfl, fun l => ?_⟩, if_pos rfl⟩
  by_cases hl : l = name :: location
  · subst hl
    exact .inr ⟨List.mem_singleton_self _, hfree.2, if_pos rfl⟩
  · exact .inl (if_neg hl)

/-- In a directory, a directory can be made where nothing stands. -/
theorem makeDirectory?_eq_none {name : String} {location : Location}
    (hlocation : fs.lookup location = some .directory) (h : fs.makeDirectory? name location = none) :
    fs.lookup (name :: location) = some .directory ∨
      ∃ bytes, fs.lookup (name :: location) = some (.file bytes) := by
  unfold makeDirectory? at h
  split_ifs at h with hfree
  rcases hentry : fs.lookup (name :: location) with _ | _ | bytes
  · exact absurd ⟨hlocation, hentry⟩ hfree
  · exact .inl rfl
  · exact .inr ⟨bytes, rfl⟩

/-- What one step does: a directory stands where it leads, which was made if nothing stood there,
or a file stands there and the way ends. -/
theorem makeDirectories_cons {location : Location} (h : fs.lookup location = some .directory)
    (step : Step) (steps : List Step) :
    (∃ fs', fs.Makes fs' [step.lead location] ∧
      fs'.lookup (step.lead location) = some .directory ∧
      fs.makeDirectories location (step :: steps) =
        fs'.makeDirectories (step.lead location) steps) ∨
    (∃ bytes, fs.lookup (step.lead location) = some (.file bytes)) ∧
      fs.makeDirectories location (step :: steps) = (false, fs) := by
  cases step with
  | up => exact .inl ⟨fs, .refl fs _, lookup_tail h, rfl⟩
  | into name =>
    simp only [makeDirectories, Step.lead]
    rcases hmade : fs.makeDirectory? name location with _ | fs'
    · rcases makeDirectory?_eq_none h hmade with hdirectory | hfile
      · exact .inl ⟨fs, .refl fs _, hdirectory, if_pos hdirectory⟩
      · refine .inr ⟨hfile, if_neg ?_⟩
        obtain ⟨bytes, hfile⟩ := hfile
        simp [hfile]
    · obtain ⟨hmakes, hdirectory⟩ := makeDirectory?_eq_some hmade
      exact .inl ⟨fs', hmakes, hdirectory, rfl⟩

section

variable {location : Location} {steps : List Step}

/-- Only directories at waypoints are made, and they stay even if the way cannot be made. -/
theorem makes_makeDirectories (h : fs.lookup location = some .directory) :
    fs.Makes (fs.makeDirectories location steps).2 (Step.waypoints location steps) := by
  induction steps generalizing fs location with
  | nil => exact .refl fs _
  | cons step steps ih =>
    rcases makeDirectories_cons h step steps with ⟨fs', hmakes, hdirectory, heq⟩ | ⟨-, heq⟩
    · rw [heq]
      refine Makes.trans (hmakes.mono fun l hl => ?_)
        ((ih hdirectory).mono fun l hl => List.mem_cons_of_mem _ hl)
      rw [List.mem_singleton.mp hl]
      exact List.mem_cons_of_mem _ (Step.mem_waypoints_self _ steps)
    · rw [heq]
      exact .refl fs _

/-- A way can be made unless a file stands on it. -/
theorem makeDirectories_fst_iff (h : fs.lookup location = some .directory) :
    (fs.makeDirectories location steps).1 = true ↔
      ∀ l ∈ Step.waypoints location steps, ∀ bytes, fs.lookup l ≠ some (.file bytes) := by
  induction steps generalizing fs location with
  | nil => simp [makeDirectories, Step.waypoints, h]
  | cons step steps ih =>
    have hnot : ∀ bytes, fs.lookup location ≠ some (.file bytes) := by simp [h]
    rw [Step.waypoints, List.forall_mem_cons, and_iff_right hnot]
    rcases makeDirectories_cons h step steps with
      ⟨fs', hmakes, hdirectory, heq⟩ | ⟨⟨bytes, hfile⟩, heq⟩
    · rw [heq, ih hdirectory]
      simp only [ne_eq, hmakes.lookup_eq_file_iff]
    · rw [heq]
      refine iff_of_false Bool.false_ne_true fun hfree => ?_
      exact hfree _ (Step.mem_waypoints_self _ steps) bytes hfile

/-- Directories stand at all waypoints of a way that is made. -/
theorem lookup_of_makeDirectories (h : fs.lookup location = some .directory)
    (hmade : (fs.makeDirectories location steps).1 = true) :
    ∀ l ∈ Step.waypoints location steps,
      (fs.makeDirectories location steps).2.lookup l = some .directory := by
  induction steps generalizing fs location with
  | nil =>
    intro l hl
    rw [List.mem_singleton.mp hl]
    exact h
  | cons step steps ih =>
    refine List.forall_mem_cons.mpr ⟨(makes_makeDirectories h).lookup_eq_directory h, ?_⟩
    rcases makeDirectories_cons h step steps with ⟨fs', hmakes, hdirectory, heq⟩ | ⟨-, heq⟩
    · rw [heq] at hmade ⊢
      exact ih hdirectory hmade
    · rw [heq] at hmade
      cases hmade

end

/-! ### The way to a file -/

theorem makes_makeParents (fs : FileSystem) (path : String) :
    fs.Makes (fs.makeParents path).2 (fs.waypoints path) :=
  makes_makeDirectories (lookup_start fs path)

theorem makeParents_fst_iff : (fs.makeParents path).1 = true ↔
    ∀ l ∈ fs.waypoints path, ∀ bytes, fs.lookup l ≠ some (.file bytes) :=
  makeDirectories_fst_iff (lookup_start fs path)

theorem hasParents_makeParents (h : (fs.makeParents path).1 = true) :
    (fs.makeParents path).2.HasParents path := by
  intro l hl
  rw [waypoints_eq_of_here (makes_makeParents fs path).here_eq] at hl
  exact lookup_of_makeDirectories (lookup_start fs path) h l hl

/-- A file can be written at a path: no file stands on the way to it, and where it leads neither a
directory stands nor is one made on the way. -/
structure IsWritable (fs : FileSystem) (path : String) : Prop where
  namesFile : FilePath.NamesFile path
  notFile : ∀ l ∈ fs.waypoints path, ∀ bytes, fs.lookup l ≠ some (.file bytes)
  notDirectory : fs.lookup (fs.target path) ≠ some .directory
  target_notMem : fs.target path ∉ fs.waypoints path

namespace IsWritable

theorem makeParents_fst (h : fs.IsWritable path) : (fs.makeParents path).1 = true :=
  makeParents_fst_iff.mpr h.notFile

theorem lookup_makeParents (h : fs.IsWritable path) :
    (fs.makeParents path).2.lookup (fs.target path) = fs.lookup (fs.target path) :=
  (makes_makeParents fs path).lookup_eq_of_notMem h.target_notMem

/-- When the way to a file is made, its path is found to be where it leads. -/
theorem stateAt_makeParents (h : fs.IsWritable path) :
    (fs.makeParents path).2.stateAt path = .ofEntry (fs.lookup (fs.target path)) := by
  rw [stateAt_of_hasParents h.namesFile (hasParents_makeParents h.makeParents_fst),
    target_eq_of_here (makes_makeParents fs path).here_eq, h.lookup_makeParents]

theorem exists_lookup_eq_none (h : fs.IsWritable path) (hparents : ¬ fs.HasParents path) :
    ∃ l ∈ fs.waypoints path, fs.lookup l = none := by
  obtain ⟨l, hl⟩ := not_forall.mp hparents
  obtain ⟨hl, hnotDirectory⟩ := Classical.not_imp.mp hl
  refine ⟨l, hl, ?_⟩
  rcases hentry : fs.lookup l with _ | _ | bytes
  · rfl
  · exact absurd hentry hnotDirectory
  · exact absurd hentry (h.notFile l hl bytes)

/-- Making the way to a file does not change what stands at its path, unless a step leads up from
where no directory was. -/
theorem stateAt_makeParents_eq (h : fs.IsWritable path)
    (hway : .up ∉ FilePath.steps path ∨ fs.HasParents path) :
    (fs.makeParents path).2.stateAt path = fs.stateAt path := by
  rw [h.stateAt_makeParents]
  by_cases hparents : fs.HasParents path
  · rw [stateAt_of_hasParents h.namesFile hparents]
  · rw [stateAt_of_not_hasParents h.namesFile hparents]
    -- The file is below a directory that was missing, so it was missing as well.
    obtain ⟨l, hl, hnone⟩ := h.exists_lookup_eq_none hparents
    have hsuffix : l <:+ fs.target path :=
      suffix_target_of_mem_waypoints h.namesFile (hway.resolve_right hparents) hl
    rw [lookup_eq_none_of_suffix hsuffix hnone]
    rfl

/-- When the way to a file is made, the file is written, and stands at its path. -/
theorem exists_write?_makeParents (h : fs.IsWritable path) (bytes : List UInt8) :
    ∃ fs', (fs.makeParents path).2.write? path bytes = some fs' ∧
      fs'.stateAt path = .file bytes := by
  have hopen : (fs.makeParents path).2.lookup ((fs.makeParents path).2.target path) ≠
      some .directory := by
    rw [target_eq_of_here (makes_makeParents fs path).here_eq, h.lookup_makeParents]
    exact h.notDirectory
  exact exists_write? h.namesFile (hasParents_makeParents h.makeParents_fst) hopen bytes

end IsWritable

/-- A file can be written where the way to it can be made and it is written then. -/
theorem isWritable_iff (bytes : List UInt8) : fs.IsWritable path ↔
    (fs.makeParents path).1 = true ∧
      ((fs.makeParents path).2.write? path bytes).isSome = true := by
  constructor
  · intro h
    obtain ⟨fs', hwrite, -⟩ := h.exists_write?_makeParents bytes
    exact ⟨h.makeParents_fst, by rw [hwrite]; rfl⟩
  · rintro ⟨hmade, hwrite⟩
    obtain ⟨fs', hwrite⟩ := Option.isSome_iff_exists.mp hwrite
    have hmakes := makes_makeParents fs path
    obtain ⟨hname, hopen⟩ := namesFile_of_write? hwrite
    rw [target_eq_of_here hmakes.here_eq] at hopen
    refine ⟨hname, makeParents_fst_iff.mp hmade, fun hdirectory => ?_, fun hmem => ?_⟩
    · exact hopen (hmakes.lookup_eq_directory hdirectory)
    · rw [← waypoints_eq_of_here hmakes.here_eq] at hmem
      exact hopen (hasParents_makeParents hmade _ hmem)

instance (fs : FileSystem) (path : String) : Decidable (fs.IsWritable path) :=
  decidable_of_iff _ (isWritable_iff []).symm

end FileSystem

end TreePath
