import TreePath.Proofs.Toml.Word
import TreePath.Toml.Document

/-! # Lines of TOML

A line gives a key without quotes the value of a word. A text of such lines, in which no key stands
twice, is read as the table of the keys and their values, in order.

* `IsLines`: the texts, with the entries that they give.
* `readStatements_of_isLines`: the statements of lines, one for each.
* `Entries.ofText?_of_isLines`: the table of a text of lines. -/

namespace TreePath.Toml

/-- Lines, each with a key without quotes and a word, and the entries that they give. -/
inductive IsLines : List Char → Entries → Prop
  | nil : IsLines [] []
  | cons {key : String} {word cs : List Char} {v : Value} {es : Entries} :
    IsRun isKeyChar key.toList → IsWord word v → IsLines cs es →
      IsLines (key.toList ++ ' ' :: '=' :: ' ' :: (word ++ '\n' :: cs)) ((key, v) :: es)

/-! ### Keys and values -/

theorem readPart_append {key : String} (h : IsRun isKeyChar key.toList) (cs : List Char) :
    readPart (key.toList ++ ' ' :: cs) = some (key, ' ' :: cs) := by
  have hword := h.takeWhile_append (c := ' ') rfl cs
  have hne : key.toList.isEmpty = false := List.isEmpty_eq_false_iff.mpr h.ne_nil
  rw [readPart, hword]
  simp only [hne, Bool.false_eq_true, if_false, String.ofList_toList, List.drop_left]

theorem readKey_append {key : String} (h : IsRun isKeyChar key.toList) (cs : List Char) :
    readKey maxDepth (key.toList ++ ' ' :: '=' :: cs) = some ([key], '=' :: cs) := by
  have hbehind : skipBlanks (' ' :: '=' :: cs) = '=' :: cs := rfl
  rw [maxDepth, readKey, h.skipBlanks_append rfl rfl, readPart_append h]
  simp only [hbehind]
  rfl

theorem readText_append {word : List Char} (h : IsRun isWordChar word) (cs : List Char) :
    readText (word ++ cs) = none := by
  have hline : readLine (word ++ cs) = none := by
    rw [readLine]
    · exact fun ds => h.append_ne_cons rfl cs ds
    · exact fun ds => h.append_ne_cons rfl cs ds
  rw [readText, hline]
  · exact fun ds => h.append_ne_cons rfl cs _
  · exact fun ds => h.append_ne_cons rfl cs _

/-- A word up to the end of its line is a value. -/
theorem readValue_append {word : List Char} {v : Value} (h : IsWord word v) (cs : List Char) :
    readValue maxDepth (word ++ '\n' :: cs) = some (v, '\n' :: cs) := by
  have hword := h.takeWhile_append (c := '\n') rfl cs
  have hscalar : readScalar (word ++ '\n' :: cs) = some (v, '\n' :: cs) := by
    rw [readScalar, hword]
    simp [h.readWord_eq]
  rw [maxDepth, readValue, readPlain, readText_append h.toIsRun]
  · exact hscalar
  · exact fun ds => h.append_ne_cons rfl _ ds
  · exact fun ds => h.append_ne_cons rfl _ ds

/-! ### Lines -/

/-- A line is a statement that gives its key its value. -/
theorem readStatement_append {key : String} {word : List Char} {v : Value}
    (hkey : IsRun isKeyChar key.toList) (hword : IsWord word v) (cs : List Char) :
    readStatement (key.toList ++ ' ' :: '=' :: ' ' :: (word ++ '\n' :: cs)) =
      some (.entry [key] v, '\n' :: cs) := by
  have hvalue : skipBlanks (' ' :: (word ++ '\n' :: cs)) = word ++ '\n' :: cs :=
    hword.skipBlanks_append rfl rfl _
  have hpair : readPair (readValue maxDepth)
      (key.toList ++ ' ' :: '=' :: ' ' :: (word ++ '\n' :: cs)) = some (([key], v), '\n' :: cs) := by
    rw [readPair, readKey_append hkey]
    simp only [hvalue, readValue_append hword, Option.map_some]
  rw [readStatement, hpair, Option.map_some]
  · exact fun ds => hkey.append_ne_cons rfl _ _
  · exact fun ds => hkey.append_ne_cons rfl _ ds

theorem skipGaps_append {key : List Char} (h : IsRun isKeyChar key) (cs : List Char) :
    skipGaps false (key ++ cs) = key ++ cs := by
  obtain ⟨c, tail, rfl⟩ := List.exists_cons_of_ne_nil h.ne_nil
  rw [List.cons_append, skipGaps, if_neg (h.head_ne rfl), if_neg Bool.false_ne_true,
    h.isBlank_head rfl rfl, if_neg Bool.false_ne_true, if_neg (h.head_ne rfl)]

/-- Lines are statements, one each. -/
theorem readStatements_of_isLines {cs : List Char} {es : Entries} (h : IsLines cs es) :
    ∀ {fuel : Nat}, cs.length < fuel →
      readStatements fuel cs = some (es.map fun e => .entry [e.1] e.2) := by
  induction h with
  | nil =>
    rintro (_ | fuel) hfuel
    · exact absurd hfuel (Nat.lt_irrefl 0)
    · rfl
  | @cons key word cs v es hkey hword _ ih =>
    rintro (_ | fuel) hfuel
    · exact absurd hfuel (Nat.not_lt_zero _)
    have hend : endLine ('\n' :: cs) = some cs := rfl
    have hrest : readStatements fuel cs = some (es.map fun e => .entry [e.1] e.2) := by
      apply ih
      simp only [List.length_append, List.length_cons] at hfuel
      omega
    have hline : key.toList ++ ' ' :: '=' :: ' ' :: (word ++ '\n' :: cs) ≠ [] :=
      List.append_ne_nil_of_left_ne_nil hkey.ne_nil _
    rw [readStatements, skipGaps_append hkey]
    split
    · contradiction
    · simp only [readStatement_append hkey hword, hend, Option.bind_some, hrest, Option.map_some,
        List.map_cons]

/-! ### Tables -/

theorem Entries.get?_eq_none_iff {es : Entries} {key : String} :
    es.get? key = none ↔ key ∉ es.map Prod.fst := by
  rw [Entries.get?, List.lookup_eq_none_iff, List.mem_map]
  constructor
  · rintro h ⟨e, he, rfl⟩
    exact absurd (h e he) (by simp)
  · intro h e he
    rw [bne_iff_ne]
    rintro rfl
    exact h ⟨e, he, rfl⟩

/-- Entries of new keys are put behind those that are there. -/
theorem foldlM_apply_entries : ∀ (new es : Entries), ((es ++ new).map Prod.fst).Nodup →
    (new.map fun e => Statement.entry [e.1] e.2).foldlM Statement.apply ([], es) =
      some ([], es ++ new)
  | [], es, _ => by rw [List.append_nil]; rfl
  | (key, v) :: new, es, h => by
    have hkey : es.get? key = none := by
      rw [List.map_append, List.nodup_append] at h
      exact Entries.get?_eq_none_iff.mpr fun hmem => h.2.2 key hmem key List.mem_cons_self rfl
    have hput : Statement.apply ([], es) (.entry [key] v) = some ([], es ++ [(key, v)]) := by
      simp [Statement.apply, Entries.atHeader, Entries.put, Entries.set, hkey]
    have ih := foldlM_apply_entries new (es ++ [(key, v)]) (by rwa [List.append_assoc])
    rw [List.append_assoc] at ih
    rw [List.map_cons, List.foldlM_cons, hput]
    exact ih

/-! ### Documents -/

theorem unifyBreaks_eq_self : ∀ {cs : List Char}, '\r' ∉ cs → unifyBreaks cs = cs
  | [], _ => rfl
  | c :: cs, h => by
    have hc : c ≠ '\r' := fun hc => h (by rw [hc]; exact List.mem_cons_self)
    have ih := unifyBreaks_eq_self fun hcs => h (List.mem_cons_of_mem c hcs)
    rw [unifyBreaks, ih]
    rintro _ rfl
    exact absurd rfl hc

theorem IsLines.noReturn {cs : List Char} {es : Entries} (h : IsLines cs es) : '\r' ∉ cs := by
  induction h with
  | nil => exact List.not_mem_nil
  | cons hkey hword _ ih =>
    intro hmem
    rcases List.mem_append.mp hmem with hmem | hmem
    · exact hkey.notMem rfl hmem
    simp only [List.mem_cons, List.mem_append, Char.reduceEq, false_or] at hmem
    rcases hmem with hmem | hmem
    · exact hword.notMem rfl hmem
    · exact ih hmem

theorem IsLines.dropMark_eq {cs : List Char} {es : Entries} (h : IsLines cs es) :
    dropMark cs = cs := by
  cases h with
  | nil => rfl
  | cons hkey _ _ =>
    rw [dropMark, if_neg]
    intro hhead
    obtain ⟨tail, htail⟩ := List.head?_eq_some_iff.mp (beq_iff_eq.mp hhead)
    exact hkey.append_ne_cons rfl _ tail htail

/-- **Lines of different keys are read as their entries.** -/
theorem Entries.ofText?_of_isLines {text : String} {es : Entries} (h : IsLines text.toList es)
    (hkeys : (es.map Prod.fst).Nodup) : Entries.ofText? text = some es := by
  have hread := readStatements_of_isLines h (Nat.lt_succ_self _)
  have htable := foldlM_apply_entries es [] hkeys
  rw [Entries.ofText?, h.dropMark_eq, unifyBreaks_eq_self h.noReturn]
  simp only [hread, Option.bind_some, Entries.ofStatements?, htable, Option.map_some,
    List.nil_append]

end TreePath.Toml
