import TreePath.Load
import TreePath.Proofs.Text.Bytes

/-! # Two ways to load a tree

The name of a file tells whether it is decompressed, and the first bytes of the standard input tell
whether that is. Where the two tell the same of some bytes, these are the same tree either way. Where
they differ, the file is no tree: what does not start like a gzip member is not decompressed, and
what does is no text.

* `Gzip.magic_prefix_of_decompress`: what is decompressed starts like a gzip member.
* `not_magic_prefix_of_textOfBytes?`: no text does.
* `loadFile_eq_ok_iff`: the tree of a file, told by the standard input, where only what starts like a
  gzip member is decompressed, and `loadFile_standard_eq_ok_iff`: so it is with `Reader.standard`.
* `loadInput_agrees`: the standard input and files load the same trees. -/

namespace TreePath

/-! ### What starts like a gzip member -/

namespace Gzip

theorem eq_take_of_split? {n : Nat} {bytes front rest : List UInt8}
    (h : split? n bytes = some (front, rest)) : front = bytes.take n := by
  simp only [split?] at h
  split_ifs at h
  exact (congrArg Prod.fst (Option.some.inj h)).symm

theorem magic_prefix_of_skipHeader {bytes rest : List UInt8} (h : skipHeader bytes = some rest) :
    magic <+: bytes := by
  obtain ⟨⟨header, behind⟩, hsplit, h⟩ := Option.bind_eq_some_iff.mp h
  have hheader : header = bytes.take 10 := eq_take_of_split? hsplit
  have hmagic : header.take 2 = magic := by
    by_contra hne
    simp [hne] at h
  rw [hheader, List.take_take] at hmagic
  rw [← hmagic]
  exact List.take_prefix _ bytes

theorem magic_prefix_of_decompress {bytes data : List UInt8} (h : decompress bytes = some data) :
    magic <+: bytes := by
  obtain ⟨rest, hrest, -⟩ := Option.bind_eq_some_iff.mp h
  exact magic_prefix_of_skipHeader hrest

end Gzip

/-- No text starts like a gzip member: the second byte does not start a character. -/
theorem not_magic_prefix_of_textOfBytes? {bytes : List UInt8} {text : String}
    (h : textOfBytes? bytes = some text) : ¬ Gzip.magic <+: bytes := by
  rw [textOfBytes?_eq_some_iff.mp h]
  intro hprefix
  have hfirst : (0x8b : UInt8).IsUTF8FirstByte :=
    Text.isUTF8FirstByte_of_prefix (by decide) hprefix
  exact absurd hfirst (by decide)

/-! ### The text of bytes -/

section Reader

variable {reader : Reader}

/-- Only what starts like a gzip member is decompressed. -/
def Reader.NeedsMagic (reader : Reader) : Prop :=
  ∀ bytes data, reader.decompress bytes = some data → Gzip.magic <+: bytes

theorem Reader.needsMagic_standard : standard.NeedsMagic :=
  fun _ _ h => Gzip.magic_prefix_of_decompress h

/-- The text of bytes, which are decompressed first or not. -/
def Reader.textOf? (reader : Reader) (isGzip : Bool) (bytes : List UInt8) : Option String :=
  if isGzip then reader.textOfGzip? bytes else textOfBytes? bytes

theorem readFile_eq_ok_iff {path text : String} {bytes : List UInt8} :
    readFile reader path (.file bytes) = .ok text ↔
      reader.textOf? (isGzipName path) bytes = some text := by
  unfold readFile Reader.textOf? FileState.text?
  cases isGzipName path with
  | true => cases h : reader.textOfGzip? bytes <;> simp [h]
  | false => cases h : textOfBytes? bytes <;> simp [h]

theorem readInput_eq_ok_iff {text : String} {bytes : List UInt8} :
    readInput reader bytes = .ok text ↔
      reader.textOf? (Gzip.magic.isPrefixOf bytes) bytes = some text := by
  unfold readInput Reader.textOf?
  cases Gzip.magic.isPrefixOf bytes with
  | true => cases reader.textOfGzip? bytes <;> simp
  | false => cases textOfBytes? bytes <;> simp

/-- The first bytes tell in which of the two ways bytes are a text. -/
theorem eq_isPrefixOf_of_textOf? (hreader : reader.NeedsMagic) {isGzip : Bool} {text : String}
    {bytes : List UInt8} (h : reader.textOf? isGzip bytes = some text) :
    isGzip = Gzip.magic.isPrefixOf bytes := by
  cases isGzip with
  | true =>
    obtain ⟨data, hdata, -⟩ := Option.bind_eq_some_iff.mp h
    exact (List.isPrefixOf_iff_prefix.mpr (hreader bytes data hdata)).symm
  | false =>
    have hnot : ¬ Gzip.magic <+: bytes := not_magic_prefix_of_textOfBytes? h
    rw [← List.isPrefixOf_iff_prefix, Bool.not_eq_true] at hnot
    exact hnot.symm

/-! ### Trees -/

theorem loadFile_eq_ok_iff_textOf? {path : String} {bytes : List UInt8} {n : Node} :
    loadFile reader path (.file bytes) = .ok n ↔
      ∃ text, reader.textOf? (isGzipName path) bytes = some text ∧ loadText reader text = .ok n := by
  simp only [← readFile_eq_ok_iff]
  unfold loadFile
  cases readFile reader path (.file bytes) <;> simp

theorem loadInput_eq_ok_iff_textOf? {bytes : List UInt8} {n : Node} :
    loadInput reader bytes = .ok n ↔ ∃ text,
      reader.textOf? (Gzip.magic.isPrefixOf bytes) bytes = some text ∧
        loadText reader text = .ok n := by
  simp only [← readInput_eq_ok_iff]
  unfold loadInput
  cases readInput reader bytes <;> simp

theorem isGzipName_eq_iff {path : String} {bytes : List UInt8} :
    isGzipName path = Gzip.magic.isPrefixOf bytes ↔
      (extension? path = some "gz" ↔ Gzip.magic <+: bytes) := by
  rw [Bool.eq_iff_iff, isGzipName, beq_iff_eq, List.isPrefixOf_iff_prefix]

/-- Where the name of a file tells of its bytes what they tell themselves, the file and the standard
input are the same tree, or none. -/
theorem loadInput_eq_ok_iff_loadFile {path : String} {bytes : List UInt8} {n : Node}
    (h : extension? path = some "gz" ↔ Gzip.magic <+: bytes) :
    loadInput reader bytes = .ok n ↔ loadFile reader path (.file bytes) = .ok n := by
  rw [loadInput_eq_ok_iff_textOf?, loadFile_eq_ok_iff_textOf?, isGzipName_eq_iff.mpr h]

/-- A file is a tree if its name tells of its bytes what they tell themselves, and they are that tree
as the standard input. -/
theorem loadFile_eq_ok_iff (hreader : reader.NeedsMagic) {path : String} {bytes : List UInt8}
    {n : Node} : loadFile reader path (.file bytes) = .ok n ↔
      (extension? path = some "gz" ↔ Gzip.magic <+: bytes) ∧ loadInput reader bytes = .ok n := by
  constructor
  · intro h
    obtain ⟨text, htext, -⟩ := loadFile_eq_ok_iff_textOf?.mp h
    have hname := isGzipName_eq_iff.mp (eq_isPrefixOf_of_textOf? hreader htext)
    exact ⟨hname, (loadInput_eq_ok_iff_loadFile hname).mpr h⟩
  · rintro ⟨hname, h⟩
    exact (loadInput_eq_ok_iff_loadFile hname).mp h

/-- **The tree of a file.** What the program reads from a file is told by what it reads from the
standard input. -/
theorem loadFile_standard_eq_ok_iff {path : String} {bytes : List UInt8} {n : Node} :
    loadFile .standard path (.file bytes) = .ok n ↔
      (extension? path = some "gz" ↔ Gzip.magic <+: bytes) ∧ loadInput .standard bytes = .ok n :=
  loadFile_eq_ok_iff Reader.needsMagic_standard

/-- A text at the standard input is never taken for a gzip member. -/
theorem loadInput_of_textOfBytes? {bytes : List UInt8} {text : String}
    (h : textOfBytes? bytes = some text) : loadInput reader bytes = loadText reader text := by
  have hplain : Gzip.magic.isPrefixOf bytes = false := by
    rw [← Bool.not_eq_true, List.isPrefixOf_iff_prefix]
    exact not_magic_prefix_of_textOfBytes? h
  have hread : readInput reader bytes = .ok text := by
    rw [readInput_eq_ok_iff, hplain]
    exact h
  rw [loadInput, hread]

end Reader

/-- **The standard input and files load the same trees.** Whatever gzip members are decompressed
with and YAML is read with, bytes that start like a gzip member are the same tree, or none, at the
standard input and in a file with the extension `gz`; other bytes, at the standard input and in a
file without it. Text is never taken for a gzip member. -/
theorem loadInput_agrees (reader : Reader) (bytes : List UInt8) :
    (Gzip.magic <+: bytes → ∀ path, extension? path = some "gz" →
      ∀ n, loadInput reader bytes = .ok n ↔ loadFile reader path (.file bytes) = .ok n) ∧
    (¬ Gzip.magic <+: bytes → ∀ path, extension? path ≠ some "gz" →
      ∀ n, loadInput reader bytes = .ok n ↔ loadFile reader path (.file bytes) = .ok n) ∧
    ∀ text, textOfBytes? bytes = some text →
      ¬ Gzip.magic <+: bytes ∧ loadInput reader bytes = loadText reader text := by
  refine ⟨fun hmagic path hname n => ?_, fun hmagic path hname n => ?_, fun text htext => ?_⟩
  · exact loadInput_eq_ok_iff_loadFile ⟨fun _ => hmagic, fun _ => hname⟩
  · exact loadInput_eq_ok_iff_loadFile ⟨fun h => absurd h hname, fun h => absurd h hmagic⟩
  · exact ⟨not_magic_prefix_of_textOfBytes? htext, loadInput_of_textOfBytes? htext⟩

/-- A gzip member that holds `a: 1`, this text itself, and a text that starts with U+001F, U+008B. -/
theorem loadInput_agrees_member :
    let member : List UInt8 := [0x1f, 0x8b, 8, 0, 0, 0, 0, 0, 0, 255, 1, 4, 0, 0xfb, 0xff, 0x61,
      0x3a, 0x20, 0x31, 0xa4, 0x0b, 0x78, 0x4f, 4, 0, 0, 0]
    let plain : List UInt8 := [0x61, 0x3a, 0x20, 0x31]
    let controls : List UInt8 := [0x1f, 0xc2, 0x8b]
    (Gzip.magic <+: member ∧ extension? "order.yaml.gz" = some "gz" ∧
      ∃ n, loadInput .standard member = .ok n ∧
        loadFile .standard "order.yaml.gz" (.file member) = .ok n) ∧
    (¬ Gzip.magic <+: plain ∧ extension? "order.yaml" ≠ some "gz" ∧
      ∃ n, loadInput .standard plain = .ok n ∧
        loadFile .standard "order.yaml" (.file plain) = .ok n) ∧
    (textOfBytes? controls = some "\x1f\u008b" ∧ ¬ Gzip.magic <+: controls ∧
      loadInput .standard controls = loadText .standard "\x1f\u008b") := by
  intro member plain controls
  have hmember : Gzip.magic <+: member := by decide
  have hplain : ¬ Gzip.magic <+: plain := by decide
  have hgzip : extension? "order.yaml.gz" = some "gz" := by decide
  have hyaml : extension? "order.yaml" ≠ some "gz" := by decide
  have hcontrols : textOfBytes? controls = some "\x1f\u008b" := by decide +kernel
  have exists_tree : ∀ bytes : List UInt8, (loadInput .standard bytes).isOk = true →
      ∃ n, loadInput .standard bytes = .ok n := fun bytes h => by
    cases hload : loadInput .standard bytes with
    | ok n => exact ⟨n, rfl⟩
    | error e => rw [hload] at h; cases h
  obtain ⟨n, hn⟩ := exists_tree member (by decide +kernel)
  obtain ⟨m, hm⟩ := exists_tree plain (by decide +kernel)
  exact ⟨⟨hmember, hgzip, n, hn, ((loadInput_agrees .standard member).1 hmember _ hgzip n).mp hn⟩,
    ⟨hplain, hyaml, m, hm, ((loadInput_agrees .standard plain).2.1 hplain _ hyaml m).mp hm⟩,
    hcontrols, (loadInput_agrees .standard controls).2.2 _ hcontrols⟩

end TreePath
