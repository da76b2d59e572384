import TreePath.Cache.Context
import TreePath.Proofs.Expression.Edit
import TreePath.Proofs.Text.Utf8
import Mathlib.Data.List.Sort
import Mathlib.Data.String.Basic
import Mathlib.Logic.Function.Basic

/-! # A context as a map

A context keeps its states by the texts of their paths, in the order of the texts. Expressions that
can be reached are told by their texts, so that for these a context is a map from expressions to
states: an operation on a path reads and writes the state of this path and of no other.

* `Context.InOrder`: entries in strictly increasing order of their texts; setting and forgetting keep
  it, and the entries are then told by what is looked up in them.
* `Context.Op.leaves`, `Context.Op.reply`, `Context.Op.apply`: an operation on a map of expressions.
* `Context.Represents`: the entries of a context are those of a map.
* `Context.Represents.step`, `Context.Represents.run`: they stay so, and the context answers as the
  map does. -/

namespace TreePath.Context

variable {σ : Type}

/-! ### Entries in order -/

/-- Each text is smaller than those after it. -/
def InOrder (es : List (String × σ)) : Prop := es.Pairwise fun a b => a.1 < b.1

theorem lookup_set (k key : String) (s : σ) : ∀ es : List (String × σ),
    lookup k (set key s es) = if k = key then some s else lookup k es
  | [] => by simp only [set, lookup, eq_comm]
  | e :: es => by
    by_cases hkey : e.1 = key
    · rw [set, if_pos hkey, lookup, lookup]
      by_cases hk : k = key
      · rw [if_pos hk.symm, if_pos hk]
      · rw [if_neg (Ne.symm hk), if_neg hk, if_neg (by rw [hkey]; exact Ne.symm hk)]
    · by_cases hlt : key < e.1
      · rw [set, if_neg hkey, if_pos hlt, lookup]
        simp only [eq_comm]
      · rw [set, if_neg hkey, if_neg hlt, lookup, lookup, lookup_set k key s es]
        by_cases hk : e.1 = k
        · rw [if_pos hk, if_pos hk, if_neg (by rw [← hk]; exact hkey)]
        · rw [if_neg hk, if_neg hk]

theorem lookup_filter_ne (k key : String) : ∀ es : List (String × σ),
    lookup k (es.filter fun e => e.1 ≠ key) = if k = key then none else lookup k es
  | [] => by simp only [List.filter_nil, lookup, ite_self]
  | e :: es => by
    by_cases hkey : e.1 = key
    · rw [List.filter_cons_of_neg (by simpa using hkey), lookup_filter_ne k key es, lookup]
      by_cases hk : k = key
      · rw [if_pos hk, if_pos hk]
      · rw [if_neg hk, if_neg hk, if_neg (by rw [hkey]; exact Ne.symm hk)]
    · rw [List.filter_cons_of_pos (by simpa using hkey), lookup, lookup, lookup_filter_ne k key es]
      by_cases hk : e.1 = k
      · rw [if_pos hk, if_pos hk, if_neg (by rw [← hk]; exact hkey)]
      · rw [if_neg hk, if_neg hk]

theorem mem_set {key : String} {s : σ} {e : String × σ} : ∀ {es : List (String × σ)},
    e ∈ set key s es → e = (key, s) ∨ e ∈ es
  | [], he => Or.inl (List.mem_singleton.mp he)
  | d :: es, he => by
    rw [set] at he
    split_ifs at he with hkey hlt
    · exact (List.mem_cons.mp he).imp_right (List.mem_cons_of_mem d)
    · exact List.mem_cons.mp he
    · rcases List.mem_cons.mp he with rfl | he
      · exact Or.inr List.mem_cons_self
      · exact (mem_set he).imp_right (List.mem_cons_of_mem d)

theorem InOrder.set (key : String) (s : σ) : ∀ {es : List (String × σ)}, InOrder es →
    InOrder (set key s es)
  | [], _ => List.pairwise_singleton _ _
  | d :: es, h => by
    obtain ⟨hd, hes⟩ := List.pairwise_cons.mp h
    rw [Context.set]
    split_ifs with hkey hlt
    · subst hkey
      exact List.pairwise_cons.mpr ⟨hd, hes⟩
    · refine List.pairwise_cons.mpr ⟨fun e he => ?_, h⟩
      rcases List.mem_cons.mp he with rfl | he
      · exact hlt
      · exact lt_trans hlt (hd e he)
    · have hgt : d.1 < key := lt_of_le_of_ne (not_lt.mp hlt) hkey
      refine List.pairwise_cons.mpr ⟨fun e he => ?_, InOrder.set key s hes⟩
      rcases mem_set he with rfl | he
      · exact hgt
      · exact hd e he

theorem lookup_eq_some_iff {t : String} {s : σ} : ∀ {es : List (String × σ)}, InOrder es →
    (lookup t es = some s ↔ (t, s) ∈ es)
  | [], _ => by simp [lookup]
  | d :: es, h => by
    obtain ⟨hd, hes⟩ := List.pairwise_cons.mp h
    have ih := lookup_eq_some_iff (t := t) (s := s) hes
    rw [lookup, List.mem_cons]
    by_cases hk : d.1 = t
    · rw [if_pos hk, Option.some.injEq]
      constructor
      · rintro rfl
        exact Or.inl (by rw [← hk])
      · rintro (rfl | he)
        · rfl
        · exact absurd hk (ne_of_lt (hd _ he))
    · rw [if_neg hk, ih]
      constructor
      · exact Or.inr
      · rintro (rfl | he)
        · exact absurd rfl hk
        · exact he

/-- Entries in order are told by their members. -/
theorem InOrder.ext {es ds : List (String × σ)} (hes : InOrder es) (hds : InOrder ds)
    (h : ∀ e, e ∈ es ↔ e ∈ ds) : es = ds := by
  have : Std.Asymm fun a b : String × σ => a.1 < b.1 := ⟨fun _ _ => lt_asymm⟩
  exact List.Pairwise.eq_of_mem_iff hes hds h

/-! ### Operations on a map -/

/-- The path that an operation is on; asking for all paths is on none. -/
def Op.path? : Op σ → Option Expression
  | .insert p _ | .get p | .remove p | .getOrInsert p _ => some p
  | .paths => none

/-- The state that an operation leaves at its path, told from the state there before. -/
def Op.leaves : Op σ → Option σ → Option σ
  | .insert _ s, _ => some s
  | .remove _, _ => none
  | .getOrInsert _ s, old => some (old.getD s)
  | _, old => old

/-- The answer to an operation on a path, told from the state there before. -/
def Op.reply : Op σ → Option σ → Answer σ
  | .getOrInsert _ s, old => .obtained (old.getD s) old.isNone
  | _, old => .state old

/-- The map after an operation: only the state of the operation's own path is another. -/
def Op.apply (m : Expression → Option σ) (op : Op σ) : Expression → Option σ :=
  match op.path? with
  | some p => Function.update m p (op.leaves (m p))
  | none => m

/-- The texts of the expressions that have a state, each once, in increasing order of their bytes. -/
structure IsPathList (m : Expression → Option σ) (texts : List String) : Prop where
  increasing : texts.Pairwise fun s t => Text.utf8Bytes s < Text.utf8Bytes t
  mem_iff : ∀ t, t ∈ texts ↔ ∃ p, m p ≠ none ∧ p.text = t

/-- What a map answers to an operation. -/
def Op.IsAnswer (m : Expression → Option σ) (op : Op σ) (a : Answer σ) : Prop :=
  match op.path? with
  | some p => a = op.reply (m p)
  | none => ∃ texts, a = .paths texts ∧ IsPathList m texts

/-- What a map answers to operations performed on it in turn. -/
inductive AreAnswers : (Expression → Option σ) → List (Op σ) → List (Answer σ) → Prop
  | nil {m : Expression → Option σ} : AreAnswers m [] []
  | cons {m : Expression → Option σ} {op : Op σ} {ops : List (Op σ)} {a : Answer σ}
    {as : List (Answer σ)} :
    op.IsAnswer m a → AreAnswers (op.apply m) ops as → AreAnswers m (op :: ops) (a :: as)

/-- Operations on paths that can be reached. -/
def OnReachable (ops : List (Op σ)) : Prop := ∀ op ∈ ops, ∀ p ∈ op.path?, p.Reachable

/-! ### Operations on entries -/

theorem step_paths (c : Context σ) {op : Op σ} (hop : op.path? = none) :
    c.step op = (.paths c.paths, c) := by
  cases op with
  | paths => rfl
  | _ => cases hop

theorem step_getOrInsert (c : Context σ) (p : Expression) (s : σ) :
    c.step (.getOrInsert p s) =
      match c.find? p with
      | some t => (.obtained t false, c)
      | none => (.obtained s true, c.insert p s) := by
  rw [step, getOrInsert]
  rcases c.find? p with _ | t <;> rfl

theorem step_reply (c : Context σ) {op : Op σ} {p : Expression} (hop : op.path? = some p) :
    (c.step op).1 = op.reply (c.find? p) := by
  cases op with
  | getOrInsert q s =>
    cases hop
    rw [step_getOrInsert, Op.reply]
    rcases c.find? p with _ | t <;> rfl
  | paths => cases hop
  | _ => cases hop; rfl

theorem lookup_step (c : Context σ) {op : Op σ} {p : Expression} (hop : op.path? = some p)
    (t : String) :
    lookup t (c.step op).2.entries =
      if t = p.text then op.leaves (c.find? p) else lookup t c.entries := by
  have hkeep : lookup t c.entries = if t = p.text then c.find? p else lookup t c.entries := by
    split_ifs with ht
    · rw [ht, find?]
    · rfl
  cases op with
  | insert q s => cases hop; exact lookup_set t p.text s c.entries
  | remove q => cases hop; exact lookup_filter_ne t p.text c.entries
  | get q => cases hop; exact hkeep
  | getOrInsert q s =>
    cases hop
    rw [step_getOrInsert, Op.leaves]
    rcases hfind : c.find? p with _ | s'
    · exact lookup_set t p.text s c.entries
    · rw [hfind] at hkeep
      exact hkeep
  | paths => cases hop

theorem inOrder_step {c : Context σ} (hc : InOrder c.entries) (op : Op σ) :
    InOrder (c.step op).2.entries := by
  cases op with
  | insert p s => exact hc.set p.text s
  | remove p => exact hc.filter _
  | getOrInsert p s =>
    rw [step_getOrInsert]
    rcases c.find? p with _ | t
    · exact hc.set p.text s
    · exact hc
  | get p => exact hc
  | paths => exact hc

/-! ### The map of a context -/

/-- The entries of a context are the states of a map of expressions that can be reached, by their
texts. -/
structure Represents (c : Context σ) (m : Expression → Option σ) : Prop where
  inOrder : InOrder c.entries
  mem_iff : ∀ t s, (t, s) ∈ c.entries ↔ ∃ p, m p = some s ∧ p.text = t
  reachable : ∀ p s, m p = some s → p.Reachable

theorem represents_empty : (empty : Context σ).Represents fun _ => none :=
  ⟨List.Pairwise.nil, by simp [empty], by simp⟩

section Represents
variable {c : Context σ} {m : Expression → Option σ} (hc : c.Represents m)
include hc

theorem Represents.lookup_eq_some_iff {t : String} {s : σ} :
    lookup t c.entries = some s ↔ ∃ p, m p = some s ∧ p.text = t := by
  rw [Context.lookup_eq_some_iff hc.inOrder, hc.mem_iff]

/-- Paths that can be reached share an entry only if they are equal. -/
theorem Represents.find?_eq {p : Expression} (hp : p.Reachable) : c.find? p = m p := by
  refine Option.ext fun s => ?_
  rw [find?, hc.lookup_eq_some_iff]
  constructor
  · rintro ⟨q, hq, htext⟩
    rwa [(hc.reachable q s hq).text_inj hp |>.mp htext] at hq
  · exact fun h => ⟨p, h, rfl⟩

theorem Represents.isPathList : IsPathList m c.paths := by
  refine ⟨?_, fun t => ?_⟩
  · rw [paths, List.pairwise_map]
    exact hc.inOrder.imp Text.utf8Bytes_lt
  · rw [paths, List.mem_map]
    constructor
    · rintro ⟨⟨t, s⟩, he, rfl⟩
      obtain ⟨p, hp, htext⟩ := (hc.mem_iff t s).mp he
      exact ⟨p, by rw [hp]; simp, htext⟩
    · rintro ⟨p, hp, rfl⟩
      obtain ⟨s, hs⟩ := Option.ne_none_iff_exists'.mp hp
      exact ⟨(p.text, s), (hc.mem_iff _ _).mpr ⟨p, hs, rfl⟩, rfl⟩

/-- A context is told by its map. -/
theorem Represents.unique {d : Context σ} (hd : d.Represents m) : c = d := by
  obtain ⟨es⟩ := c
  obtain ⟨ds⟩ := d
  have hes : es = ds := InOrder.ext hc.inOrder hd.inOrder fun e =>
    (hc.mem_iff e.1 e.2).trans (hd.mem_iff e.1 e.2).symm
  rw [hes]

/-- **A change at one path is a change at one expression.** -/
theorem Represents.update {p : Expression} (hp : p.Reachable) {new : Option σ} {d : Context σ}
    (hd : InOrder d.entries)
    (hlookup : ∀ t, lookup t d.entries = if t = p.text then new else lookup t c.entries) :
    d.Represents (Function.update m p new) := by
  refine ⟨hd, fun t s => ?_, fun q s hq => ?_⟩
  · rw [← Context.lookup_eq_some_iff hd, hlookup]
    split_ifs with ht
    · constructor
      · rintro rfl
        exact ⟨p, Function.update_self p _ m, ht.symm⟩
      · rintro ⟨q, hq, htext⟩
        by_cases hqp : q = p
        · rwa [hqp, Function.update_self] at hq
        · rw [Function.update_of_ne hqp] at hq
          exact absurd ((hc.reachable q s hq).text_inj hp |>.mp (htext.trans ht)) hqp
    · rw [hc.lookup_eq_some_iff]
      have hne : ∀ {q : Expression}, q.text = t → q ≠ p := by
        rintro q htext rfl
        exact ht htext.symm
      constructor
      · rintro ⟨q, hq, htext⟩
        exact ⟨q, by rwa [Function.update_of_ne (hne htext)], htext⟩
      · rintro ⟨q, hq, htext⟩
        exact ⟨q, by rwa [Function.update_of_ne (hne htext)] at hq, htext⟩
  · by_cases hqp : q = p
    · rwa [hqp]
    · rw [Function.update_of_ne hqp] at hq
      exact hc.reachable q s hq

/-- **An operation on a context is one on its map**, with the answer of the map. -/
theorem Represents.step {op : Op σ} (hop : ∀ p ∈ op.path?, p.Reachable) :
    op.IsAnswer m (c.step op).1 ∧ (c.step op).2.Represents (op.apply m) := by
  rw [Op.IsAnswer, Op.apply]
  rcases hpath : op.path? with _ | p
  · rw [step_paths c hpath]
    exact ⟨⟨c.paths, rfl, hc.isPathList⟩, hc⟩
  · have hp : p.Reachable := hop p hpath
    refine ⟨?_, hc.update hp (inOrder_step hc.inOrder op) fun t => ?_⟩
    · rw [step_reply c hpath, hc.find?_eq hp]
    · rw [lookup_step c hpath, hc.find?_eq hp]

end Represents

theorem Represents.run : ∀ {ops : List (Op σ)} {c : Context σ} {m : Expression → Option σ},
    c.Represents m → OnReachable ops →
      AreAnswers m ops (c.answers ops) ∧ (c.run ops).Represents (ops.foldl Op.apply m)
  | [], _, _, hc, _ => ⟨.nil, hc⟩
  | op :: ops, c, m, hc, hops => by
    obtain ⟨hanswer, hstep⟩ := hc.step (hops op List.mem_cons_self)
    obtain ⟨hanswers, hrun⟩ := hstep.run fun o ho => hops o (List.mem_cons_of_mem op ho)
    exact ⟨.cons hanswer hanswers, hrun⟩

end TreePath.Context
