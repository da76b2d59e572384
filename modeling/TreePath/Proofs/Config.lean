import TreePath.Config
import TreePath.Proofs.FileSystem
import TreePath.Proofs.Text.Bytes
import TreePath.Proofs.Toml.Line

/-! # Saving and loading a configuration

The document of a configuration is read as the configuration, as long as its capacities are integers
of TOML. Any other configuration is refused before a file is touched, but the way to the file is made
then.

* `Config.ofText?_text`: what the document of a configuration is read as.
* `Config.save_eq_ok_iff`: when a configuration is saved.
* `Config.load_save`: a configuration is saved and loaded as it was, or no file changes. -/

namespace TreePath

namespace Config

/-! ### The document -/

/-- The table of a configuration. -/
def entries (c : Config) : Toml.Entries :=
  [(artifactKey, .integer c.artifactCapacity), (contextKey, .integer c.contextCapacity),
    (strictKey, .boolean c.isStrict)]

/-- The largest integer of 64 bits with a sign. -/
def largestCapacity : Nat := 0x7fffffffffffffff

theorem fits_iff {c : Config} :
    c.fits = true ↔ c.artifactCapacity ≤ largestCapacity ∧ c.contextCapacity ≤ largestCapacity := by
  have hbound : Toml.integerBound = largestCapacity + 1 := rfl
  rw [fits, Bool.and_eq_true, decide_eq_true_eq, decide_eq_true_eq, hbound]
  omega

/-- The keys stand without quotes. -/
theorem isRun_keys : Toml.IsRun Toml.isKeyChar artifactKey.toList ∧
    Toml.IsRun Toml.isKeyChar contextKey.toList ∧ Toml.IsRun Toml.isKeyChar strictKey.toList :=
  ⟨⟨by decide, List.all_eq_true.mp (by decide)⟩, ⟨by decide, List.all_eq_true.mp (by decide)⟩,
    ⟨by decide, List.all_eq_true.mp (by decide)⟩⟩

/-- The document has a line for each entry of the table. -/
theorem isLines_text {c : Config} (h : c.fits = true) : Toml.IsLines c.text.toList c.entries := by
  obtain ⟨hartifact, hcontext, hstrict⟩ := isRun_keys
  rw [fits, Bool.and_eq_true, decide_eq_true_eq, decide_eq_true_eq] at h
  have hlines := Toml.IsLines.cons hartifact (Toml.isWord_repr h.1)
    (.cons hcontext (Toml.isWord_repr h.2) (.cons hstrict (Toml.isWord_boolean c.isStrict) .nil))
  simpa [text, entries] using hlines

/-- The table of a configuration is the table it is read from. -/
theorem ofEntries?_entries (c : Config) : ofEntries? c.entries = some c := by
  have hartifact : c.entries.get? artifactKey = some (.integer c.artifactCapacity) := rfl
  have hcontext : c.entries.get? contextKey = some (.integer c.contextCapacity) := rfl
  have hstrict : c.entries.get? strictKey = some (.boolean c.isStrict) := rfl
  simp [ofEntries?, capacity?, switch?, hartifact, hcontext, hstrict]

theorem nodup_keys (c : Config) : (c.entries.map Prod.fst).Nodup := by
  simp only [entries, List.map_cons, List.map_nil]
  decide

/-- The document of a configuration is read as the configuration. -/
theorem ofText?_text {c : Config} (h : c.fits = true) : ofText? c.text = some c := by
  rw [ofText?, Toml.Entries.ofText?_of_isLines (isLines_text h) c.nodup_keys, Option.bind_some,
    ofEntries?_entries]

/-! ### The file -/

theorem load_file_text {c : Config} (h : c.fits = true) : load (.file (bytesOfText c.text)) = c := by
  rw [load, FileState.text?, textOfBytes?_bytesOfText, Option.bind_some, ofText?_text h,
    Option.getD_some]

/-! ### Saving -/

variable {c : Config} {fs : FileSystem} {path : String}

/-- Where a file can be written, the document of a configuration is. -/
theorem save_of_fits (hfits : c.fits = true) (h : fs.IsWritable path) :
    ∃ fs', c.save fs path = (.ok (), fs') ∧ fs'.stateAt path = .file (bytesOfText c.text) := by
  obtain ⟨fs', hwrite, hstate⟩ := h.exists_write?_makeParents (bytesOfText c.text)
  have hmade := h.makeParents_fst
  refine ⟨fs', ?_, hstate⟩
  unfold save
  rcases hparents : fs.makeParents path with ⟨made, fs₁⟩
  rw [hparents] at hwrite hmade
  subst hmade
  simp [hfits, hwrite]

/-- Of a configuration that is refused, only the way to the file is left. -/
theorem save_of_not_fits (hfits : ¬ c.fits = true) (hmade : (fs.makeParents path).1 = true) :
    c.save fs path = (.error .tooLarge, (fs.makeParents path).2) := by
  unfold save
  rcases hparents : fs.makeParents path with ⟨made, fs₁⟩
  rw [hparents] at hmade
  subst hmade
  simp [hfits]

/-- A configuration is saved if its capacities are integers of TOML and a file can be written at the
path, and only then. -/
theorem save_eq_ok_iff : (c.save fs path).1 = .ok () ↔ c.fits = true ∧ fs.IsWritable path := by
  rw [FileSystem.isWritable_iff (bytesOfText c.text)]
  unfold save
  rcases fs.makeParents path with ⟨_ | _, fs₁⟩
  · simp
  cases c.fits with
  | false => simp
  | true => cases hwrite : fs₁.write? path (bytesOfText c.text) <;> simp [hwrite]

/-- **A configuration is saved whole or not at all.** Where a file can be written, a configuration
whose capacities are integers of 64 bits with a sign is saved, and is what is loaded then, whatever
stood there. Any other is refused. Then no file is made, changed or removed, and missing directories
are made on the way to the file only. What stands at the path, and what is loaded, is as before if
something stood there, if the path has no step up, or if its directory was there. -/
theorem load_save (c : Config) {fs : FileSystem} {path : String} (h : fs.IsWritable path) :
    (c.artifactCapacity ≤ largestCapacity ∧ c.contextCapacity ≤ largestCapacity →
      (c.save fs path).1 = .ok () ∧ loadFrom (c.save fs path).2 path = c) ∧
    (largestCapacity < c.artifactCapacity ∨ largestCapacity < c.contextCapacity →
      (c.save fs path).1 = .error .tooLarge ∧
      fs.Makes (c.save fs path).2 (fs.waypoints path) ∧
      (fs.stateAt path ≠ .missing ∨ .up ∉ FilePath.steps path ∨ fs.HasParents path →
        (c.save fs path).2.stateAt path = fs.stateAt path ∧
          loadFrom (c.save fs path).2 path = loadFrom fs path)) := by
  constructor
  · intro hbounds
    have hfits := fits_iff.mpr hbounds
    obtain ⟨fs', hsave, hstate⟩ := save_of_fits hfits h
    rw [hsave, loadFrom, hstate]
    exact ⟨rfl, load_file_text hfits⟩
  · intro hbounds
    have hfits : ¬ c.fits = true := fun hfits => by
      have hbounds' := fits_iff.mp hfits
      omega
    rw [save_of_not_fits hfits h.makeParents_fst]
    refine ⟨rfl, FileSystem.makes_makeParents fs path, fun hway => ?_⟩
    have hparents : .up ∉ FilePath.steps path ∨ fs.HasParents path := by
      rcases hway with hthere | hway
      · exact .inr (FileSystem.hasParents_of_stateAt_ne h.namesFile hthere)
      · exact hway
    have hstate := h.stateAt_makeParents_eq hparents
    exact ⟨hstate, by rw [loadFrom, hstate, loadFrom]⟩

/-- A step up from a directory that is made uncovers a file: none stands at the path, a configuration
with a capacity that is too large is refused, and then the file behind the step stands there and is
loaded. -/
theorem save_too_large_uncovers_file :
    let c : Config := ⟨largestCapacity + 1, 1000, false⟩
    let bytes := bytesOfText "strict_mode = true\n"
    let fs := FileSystem.empty.put "config.toml" [] (.file bytes) rfl (by decide)
    let path := "newdir/../config.toml"
    fs.IsWritable path ∧ largestCapacity < c.artifactCapacity ∧
      (c.save fs path).1 = .error .tooLarge ∧
      fs.stateAt path = .missing ∧ (c.save fs path).2.stateAt path = .file bytes ∧
      loadFrom fs path = {} ∧ loadFrom (c.save fs path).2 path = ⟨2048, 1000, true⟩ := by
  intro c bytes fs path
  have hwritable : fs.IsWritable path := by decide +kernel
  exact ⟨hwritable, by decide, by decide +kernel, by decide +kernel, by decide +kernel,
    by decide +kernel, by decide +kernel⟩

/-- The largest capacity is saved over a file that holds no text, in a directory that is there, and
the next one makes directories and no file. -/
theorem load_save_largest :
    let c : Config := ⟨largestCapacity, 0, true⟩
    let d : Config := ⟨1, largestCapacity + 1, false⟩
    let fs := FileSystem.empty.put "config.toml" [] (.file [0xff]) rfl (by decide)
    fs.IsWritable "config.toml" ∧ (c.save fs "config.toml").1 = .ok () ∧
      loadFrom (c.save fs "config.toml").2 "config.toml" = c ∧
      fs.IsWritable "a/b/config.toml" ∧ (d.save fs "a/b/config.toml").1 = .error .tooLarge ∧
      (d.save fs "a/b/config.toml").2.stateAt "a/b" = .directory ∧
      (d.save fs "a/b/config.toml").2.stateAt "a/b/config.toml" = .missing ∧
      loadFrom (d.save fs "a/b/config.toml").2 "a/b/config.toml" = {} := by
  intro c d fs
  have hover : fs.IsWritable "config.toml" := by decide +kernel
  have hanew : fs.IsWritable "a/b/config.toml" := by decide +kernel
  have hdown : .up ∉ FilePath.steps "a/b/config.toml" := by decide +kernel
  obtain ⟨hsaved, hloaded⟩ := (load_save c hover).1 (by decide)
  obtain ⟨hrefused, -, hsame⟩ := (load_save d hanew).2 (Or.inr (by decide))
  obtain ⟨hstate, hdefault⟩ := hsame (.inr (.inl hdown))
  exact ⟨hover, hsaved, hloaded, hanew, hrefused, by decide +kernel,
    hstate.trans (by decide +kernel), hdefault.trans (by decide +kernel)⟩

end Config

end TreePath
