import TreePath.Proofs.Cache.StateMap

/-! # Interleaved operations on a context

Operations on different paths do not see each other. So if the operations of two lists are on
different paths, then it does not matter how the lists are interleaved: every operation is answered
as if its list were alone, and the same entries are left.

* `Interleaves`: a list merged from two lists, each in its own order.
* `Context.AreApart`: the operations of two lists are on different paths.
* `Context.answers_interleaves`, `Context.run_interleaves`: the answers and the entries of an
  interleaving.
* `Context.run_represents_map`: a context is a map from expressions to states in every run. -/

namespace TreePath

/-- The third list consists of the first two, each in its own order. -/
inductive Interleaves {α : Type} : List α → List α → List α → Prop
  | nil : Interleaves [] [] []
  | left {x : α} {xs ys zs : List α} : Interleaves xs ys zs → Interleaves (x :: xs) ys (x :: zs)
  | right {y : α} {xs ys zs : List α} : Interleaves xs ys zs → Interleaves xs (y :: ys) (y :: zs)

theorem Interleaves.mem {α : Type} {xs ys zs : List α} (h : Interleaves xs ys zs) {z : α}
    (hz : z ∈ zs) : z ∈ xs ∨ z ∈ ys := by
  induction h with
  | nil => exact Or.inl hz
  | left _ ih =>
    rcases List.mem_cons.mp hz with rfl | hz
    · exact Or.inl List.mem_cons_self
    · exact (ih hz).imp_left (List.mem_cons_of_mem _)
  | right _ ih =>
    rcases List.mem_cons.mp hz with rfl | hz
    · exact Or.inr List.mem_cons_self
    · exact (ih hz).imp_right (List.mem_cons_of_mem _)

namespace Context

variable {σ : Type} {xs ys zs : List (Op σ)}

/-- Every operation is on a path, and no path is that of operations of both lists. -/
structure AreApart (xs ys : List (Op σ)) : Prop where
  onPath : ∀ op ∈ xs ++ ys, op.path? ≠ none
  ne : ∀ x ∈ xs, ∀ y ∈ ys, x.path? ≠ y.path?

theorem AreApart.symm (h : AreApart xs ys) : AreApart ys xs :=
  ⟨fun op hop => h.onPath op (List.mem_append.mpr (List.mem_append.mp hop).symm),
    fun y hy x hx => (h.ne x hx y hy).symm⟩

theorem AreApart.tail {x : Op σ} (h : AreApart (x :: xs) ys) : AreApart xs ys :=
  ⟨fun op hop => h.onPath op (List.mem_cons_of_mem x hop),
    fun y hy => h.ne y (List.mem_cons_of_mem x hy)⟩

theorem AreApart.head {x : Op σ} (h : AreApart (x :: xs) ys) :
    ∃ p, x.path? = some p ∧ ∀ y ∈ ys, y.path? ≠ some p := by
  obtain ⟨p, hp⟩ := Option.ne_none_iff_exists'.mp (h.onPath x List.mem_cons_self)
  exact ⟨p, hp, fun y hy hyp => h.ne x List.mem_cons_self y hy (hp.trans hyp.symm)⟩

/-! ### Answers -/

/-- Two contexts have the same states at the paths of operations. -/
def AgreeAt (ops : List (Op σ)) (c d : Context σ) : Prop :=
  ∀ op ∈ ops, ∀ p ∈ op.path?, c.find? p = d.find? p

/-- The same operation on both keeps them in agreement. -/
theorem AgreeAt.step {ops : List (Op σ)} {c d : Context σ} {op : Op σ} {p : Expression}
    (hop : op.path? = some p) (h : AgreeAt (op :: ops) c d) :
    AgreeAt ops (c.step op).2 (d.step op).2 := by
  intro o ho q hq
  have hp : c.find? p = d.find? p := h op List.mem_cons_self p hop
  have hq : c.find? q = d.find? q := h o (List.mem_cons_of_mem op ho) q hq
  rw [find?, find?] at hq ⊢
  rw [lookup_step c hop, lookup_step d hop, hp, hq]

/-- An operation on another path on one of them keeps them in agreement. -/
theorem AgreeAt.stepOne {ops : List (Op σ)} {c d : Context σ} {op : Op σ} {p : Expression}
    (hop : op.path? = some p) (hp : p.Reachable) (hops : OnReachable ops)
    (hne : ∀ o ∈ ops, o.path? ≠ some p) (h : AgreeAt ops c d) : AgreeAt ops (c.step op).2 d := by
  intro o ho q hq
  have hqp : q.text ≠ p.text := by
    intro htext
    rw [((hops o ho q hq).text_inj hp).mp htext] at hq
    exact hne o ho hq
  rw [← h o ho q hq, find?, find?, lookup_step c hop, if_neg hqp]

/-- **Each operation is answered as if its list were alone.** -/
theorem answers_interleaves (h : Interleaves xs ys zs) (hxs : OnReachable xs) (hys : OnReachable ys)
    (hapart : AreApart xs ys) {c cx cy : Context σ} (hx : AgreeAt xs c cx) (hy : AgreeAt ys c cy) :
    Interleaves (xs.zip (cx.answers xs)) (ys.zip (cy.answers ys)) (zs.zip (c.answers zs)) := by
  induction h generalizing c cx cy with
  | nil => exact .nil
  | @left x xs ys zs h ih =>
    obtain ⟨p, hp, hne⟩ := hapart.head
    have hanswer : (cx.step x).1 = (c.step x).1 := by
      rw [step_reply cx hp, step_reply c hp, hx x List.mem_cons_self p hp]
    have hreach : p.Reachable := hxs x List.mem_cons_self p hp
    have hrest := ih (fun o ho => hxs o (List.mem_cons_of_mem x ho)) hys hapart.tail
      (hx.step hp) (hy.stepOne hp hreach hys hne)
    rw [answers, answers, List.zip_cons_cons, List.zip_cons_cons, hanswer]
    exact hrest.left
  | @right y xs ys zs h ih =>
    obtain ⟨p, hp, hne⟩ := hapart.symm.head
    have hanswer : (cy.step y).1 = (c.step y).1 := by
      rw [step_reply cy hp, step_reply c hp, hy y List.mem_cons_self p hp]
    have hreach : p.Reachable := hys y List.mem_cons_self p hp
    have hrest := ih hxs (fun o ho => hys o (List.mem_cons_of_mem y ho)) hapart.symm.tail.symm
      (hx.stepOne hp hreach hxs hne) (hy.step hp)
    rw [answers, answers, List.zip_cons_cons, List.zip_cons_cons, hanswer]
    exact hrest.right

/-! ### Entries -/

/-- **Operations on different paths commute.** -/
theorem apply_comm (m : Expression → Option σ) {x y : Op σ} {p q : Expression}
    (hx : x.path? = some p) (hy : y.path? = some q) (hpq : p ≠ q) :
    y.apply (x.apply m) = x.apply (y.apply m) := by
  simp only [Op.apply, hx, hy]
  rw [Function.update_of_ne (Ne.symm hpq), Function.update_of_ne hpq, Function.update_comm hpq]

theorem foldl_apply_comm {y : Op σ} {q : Expression} (hy : y.path? = some q) :
    ∀ {xs : List (Op σ)} (m : Expression → Option σ), (∀ x ∈ xs, x.path? ≠ none) →
      (∀ x ∈ xs, x.path? ≠ some q) →
      xs.foldl Op.apply (y.apply m) = y.apply (xs.foldl Op.apply m)
  | [], _, _, _ => rfl
  | x :: xs, m, hpath, hne => by
    obtain ⟨p, hp⟩ := Option.ne_none_iff_exists'.mp (hpath x List.mem_cons_self)
    have hpq : q ≠ p := by
      rintro rfl
      exact hne x List.mem_cons_self hp
    rw [List.foldl_cons, List.foldl_cons, apply_comm m hy hp hpq]
    exact foldl_apply_comm hy _ (fun o ho => hpath o (List.mem_cons_of_mem x ho))
      fun o ho => hne o (List.mem_cons_of_mem x ho)

theorem foldl_apply_interleaves (h : Interleaves xs ys zs) (hapart : AreApart xs ys)
    (m : Expression → Option σ) : zs.foldl Op.apply m = (xs ++ ys).foldl Op.apply m := by
  induction h generalizing m with
  | nil => rfl
  | @left x xs ys zs h ih => exact ih hapart.tail (x.apply m)
  | @right y xs ys zs h ih =>
    obtain ⟨q, hq, hne⟩ := hapart.symm.head
    have hpath : ∀ x ∈ xs, x.path? ≠ none := fun x hx =>
      hapart.onPath x (List.mem_append_left _ hx)
    rw [List.foldl_cons, ih hapart.symm.tail.symm, List.foldl_append, List.foldl_append,
      List.foldl_cons, foldl_apply_comm hq m hpath hne]

theorem onReachable_interleaves (h : Interleaves xs ys zs) (hxs : OnReachable xs)
    (hys : OnReachable ys) : OnReachable zs := by
  intro op hop
  rcases h.mem hop with hop | hop
  · exact hxs op hop
  · exact hys op hop

/-- **Any interleaving leaves the context that the one list after the other leaves.** -/
theorem run_interleaves (h : Interleaves xs ys zs) (hxs : OnReachable xs) (hys : OnReachable ys)
    (hapart : AreApart xs ys) {c : Context σ} {m : Expression → Option σ} (hc : c.Represents m) :
    c.run zs = c.run (xs ++ ys) := by
  have happend : OnReachable (xs ++ ys) := fun op hop =>
    (List.mem_append.mp hop).elim (hxs op) (hys op)
  have hzs := (hc.run (onReachable_interleaves h hxs hys)).2
  rw [foldl_apply_interleaves h hapart] at hzs
  exact hzs.unique (hc.run happend).2

/-! ### Runs -/

/-- **A context is a map from expressions to states.** In every run on paths that can be reached:

* it answers as a map does whose keys are the expressions themselves; paths have one text, and so
  one entry, only if they are equal;
* its paths and entries are the texts of the expressions that have a state, with these states, each
  text once and in increasing order of the bytes;
* after that, operations of two lists on different paths are answered in every interleaving as if
  each list were alone, and leave the same entries. -/
theorem run_represents_map {ops : List (Op σ)} (hops : OnReachable ops) :
    let m := ops.foldl Op.apply fun _ => none
    let c := (empty : Context σ).run ops
    AreAnswers (fun _ => none) ops ((empty : Context σ).answers ops) ∧
    (∀ p, p.Reachable → c.find? p = m p) ∧
    (∀ p q : Expression, p.Reachable → q.Reachable → (p.text = q.text ↔ p = q)) ∧
    IsPathList m c.paths ∧
    (c.entries.Pairwise fun a b => Text.utf8Bytes a.1 < Text.utf8Bytes b.1) ∧
    (∀ t s, (t, s) ∈ c.entries ↔ ∃ p, m p = some s ∧ p.text = t) ∧
    ∀ xs ys zs, Interleaves xs ys zs → OnReachable xs → OnReachable ys → AreApart xs ys →
      Interleaves (xs.zip (c.answers xs)) (ys.zip (c.answers ys)) (zs.zip (c.answers zs)) ∧
        (c.run zs).entries = (c.run (xs ++ ys)).entries := by
  intro m c
  obtain ⟨hanswers, hc⟩ := represents_empty.run hops
  refine ⟨hanswers, fun p => hc.find?_eq, fun p q hp => hp.text_inj, hc.isPathList,
    hc.inOrder.imp Text.utf8Bytes_lt, hc.mem_iff, fun xs ys zs h hxs hys hapart => ⟨?_, ?_⟩⟩
  · exact answers_interleaves h hxs hys hapart (fun _ _ _ _ => rfl) fun _ _ _ _ => rfl
  · rw [run_interleaves h hxs hys hapart hc]

/-- The wildcard and two positions are three paths, in the order of their bytes, and the empty path is
in front of them. Then one of two writers gets and forgets a position while the other sets the
wildcard. -/
theorem run_represents_map_wildcard :
    let item (i : Selector) : Expression := ⟨[⟨"items", [i]⟩]⟩
    let ops : List (Op Nat) := [.insert (item (.position 2)) 1, .getOrInsert (item .wildcard) 2,
      .insert .empty 3, .getOrInsert (item (.position 10)) 4, .get (item (.position 2)), .paths]
    let xs : List (Op Nat) := [.get (item (.position 2)), .remove (item (.position 2))]
    let ys : List (Op Nat) := [.insert (item .wildcard) 5]
    let zs : List (Op Nat) := [.get (item (.position 2)), .insert (item .wildcard) 5,
      .remove (item (.position 2))]
    let c := (empty : Context Nat).run ops
    OnReachable ops ∧ c.find? (item (.position 2)) = some 1 ∧ c.find? (item .wildcard) = some 2 ∧
      c.paths = ["", "items[*]", "items[10]", "items[2]"] ∧
      IsPathList (ops.foldl Op.apply fun _ => none) c.paths ∧
      Interleaves xs ys zs ∧ OnReachable xs ∧ OnReachable ys ∧ AreApart xs ys ∧
      Interleaves (xs.zip (c.answers xs)) (ys.zip (c.answers ys)) (zs.zip (c.answers zs)) ∧
      c.answers zs = [.state (some 1), .state (some 2), .state (some 1)] ∧
      (c.run zs).entries = [("", 3), ("items[*]", 5), ("items[10]", 4)] := by
  intro item ops xs ys zs c
  have hitem : ∀ i, (item i).Reachable := by
    intro i
    have hw : (item i).IsWritable := ⟨by simp [item], by simpa [item] using ⟨by decide, by simp⟩⟩
    exact .parse (Expression.parse_text hw)
  have hops : OnReachable ops := by
    simp [OnReachable, ops, Op.path?, hitem, Expression.Reachable.empty]
  have hxs : OnReachable xs := by simp [OnReachable, xs, Op.path?, hitem]
  have hys : OnReachable ys := by simp [OnReachable, ys, Op.path?, hitem]
  have hzs : Interleaves xs ys zs := .left (.right (.left .nil))
  have hapart : AreApart xs ys := ⟨by decide, by decide⟩
  obtain ⟨-, hfind, -, hpaths, -, -, hinterleave⟩ := run_represents_map hops
  obtain ⟨hanswers, hentries⟩ := hinterleave xs ys zs hzs hxs hys hapart
  exact ⟨hops, (hfind _ (hitem _)).trans (by decide), (hfind _ (hitem _)).trans (by decide),
    by decide +kernel, hpaths, hzs, hxs, hys, hapart, hanswers, by decide +kernel,
    hentries.trans (by decide +kernel)⟩

end Context

end TreePath
