import TreePath.Proofs.Cache.Generation
import TreePath.Proofs.Cache.Part

/-! # Contexts and stores do not interfere

The cache consists of parts that do not touch each other: the store of artifacts, the store of roots,
and each context that was made. In every run a part answers and ends as if it were alone and performed
its own operations only. So a context that is held keeps its states when its root is evicted or the
cache is cleared, and a context made later for that root does not show them.

* `Generation.Op.artifact?`, `Generation.Op.rootStore?`, `Generation.Op.within?`: what an operation
  asks of each part.
* `Generation.UsesAnswered`: operations in contexts use numbers that were answered before.
* `Generation.run_isolated`: every part of a run is a run of its own. -/

namespace TreePath.Generation

variable {α σ : Type}

/-! ### The parts of the cache -/

/-- What an operation asks of the store of artifacts. -/
def Op.artifact? : Op α σ → Option (Lru.Op PropertyKey α)
  | .put k v => some (.put k.identity v)
  | .get k => some (.get k.identity)
  | .clear => some .clear
  | _ => none

/-- What an operation asks of the store of roots, if a context made for it has the number `id`. -/
def Op.rootStore? (id : Nat) : Op α σ → Option (Lru.Op RootKey Nat)
  | .retrieve k => some (.getOrInsert k.identity id)
  | .clear => some .clear
  | _ => none

/-- What an operation asks of the context of a number. -/
def Op.within? (id : Nat) : Op α σ → Option (Context.Op σ)
  | .within i op => if i = id then some op else none
  | _ => none

/-- What the store of artifacts answers, as an answer of the cache. -/
def Answer.ofArtifact : Lru.Answer α → Answer α σ
  | .found v => .artifact v
  | _ => .done

/-- What the store of roots answers, as an answer of the cache. -/
def Answer.ofRoot : Lru.Answer Nat → Answer α σ
  | .obtained id _ => .context id
  | _ => .done

/-- The operations on a store of roots alone: retrievals and clearings, where the contexts made are
numbered from zero in order. The store counts them as its misses. -/
def rootOps (c : Lru RootKey Nat) (ops : List (Op α σ)) : List (Lru.Op RootKey Nat) :=
  asked Lru.step (fun c => Op.rootStore? c.stats.misses) c ops

theorem follows_artifacts (g : Generation α σ) (op : Op α σ) :
    Follows step Lru.step artifacts (fun _ => Op.artifact?) Answer.ofArtifact g op := by
  cases op with
  | put k v => exact .perform rfl rfl rfl
  | get k => exact .perform rfl rfl rfl
  | retrieve k => exact .skip rfl rfl
  | within id op => exact .skip rfl rfl
  | clear => exact .perform rfl rfl rfl

theorem follows_roots {g : Generation α σ} {ks : List RootKey} (hg : g.Tracks ks) (op : Op α σ) :
    Follows step Lru.step roots (fun c => Op.rootStore? c.stats.misses) Answer.ofRoot g op := by
  cases op with
  | put k v => exact .skip rfl rfl
  | get k => exact .skip rfl rfl
  | retrieve k =>
    have hask : Op.rootStore? g.roots.stats.misses (.retrieve k : Op α σ) =
        some (.getOrInsert k.identity g.contexts.length) := by rw [hg.length_eq]; rfl
    exact .perform hask rfl rfl
  | within id op => exact .skip rfl rfl
  | clear => exact .perform rfl rfl rfl

/-! ### Contexts -/

/-- **An operation elsewhere leaves a context alone.** -/
theorem context_step {g : Generation α σ} {ks : List RootKey} (hg : g.Tracks ks) {id : Nat}
    {op : Op α σ} (hop : op.within? id = none) : (g.step op).2.context id = g.context id := by
  cases op with
  | retrieve k => exact (retrieve_spec hg.isValid k).context_eq id
  | within i op =>
    have hne : i ≠ id := by
      rintro rfl
      rw [Op.within?, if_pos rfl] at hop
      cases hop
    show (g.contexts.set i _).getD id .empty = g.contexts.getD id .empty
    rw [List.getD_eq_getElem?_getD, List.getElem?_set_ne hne, ← List.getD_eq_getElem?_getD]
  | _ => rfl

theorem follows_context {g : Generation α σ} {ks : List RootKey} (hg : g.Tracks ks) {id : Nat}
    {op : Op α σ} (hid : ∀ o, op = .within id o → id < g.contexts.length) :
    Follows step Context.step (fun g => g.context id) (fun _ => Op.within? id) Answer.within g op := by
  rcases hask : op.within? id with _ | o
  · exact .skip hask (context_step hg hask)
  · have hop : op = .within id o := by
      cases op with
      | within i o' =>
        rw [Op.within?] at hask
        split_ifs at hask with hi
        rw [hi, Option.some.inj hask]
      | _ => cases hask
    subst hop
    refine .perform hask rfl ?_
    show (g.contexts.set id _).getD id .empty = _
    rw [List.getD_eq_getElem?_getD, List.getElem?_set_self (hid o rfl)]
    rfl

/-! ### Runs -/

/-- The number of the context that an operation is performed in. -/
def Op.handle? : Op α σ → Option Nat
  | .within id _ => some id
  | _ => none

/-- Every operation in a context uses a number that was answered before. -/
def UsesAnswered (g : Generation α σ) (ops : List (Op α σ)) : Prop :=
  ∀ i < ops.length, ∀ id ∈ ops[i]?.bind Op.handle?, .context id ∈ g.answers (ops.take i)

instance [DecidableEq α] [DecidableEq σ] (g : Generation α σ) (ops : List (Op α σ)) :
    Decidable (UsesAnswered g ops) := by
  unfold UsesAnswered; infer_instance

theorem UsesAnswered.mem_answers {g : Generation α σ} {before after : List (Op α σ)} {id : Nat}
    {op : Context.Op σ} (h : UsesAnswered g (before ++ .within id op :: after)) :
    .context id ∈ g.answers before := by
  have hid := h before.length (by simp) id (by simp [Op.handle?])
  rwa [List.take_left] at hid

/-- Nothing was performed in a context whose number was not answered. -/
theorem UsesAnswered.filterMap_within? {g : Generation α σ} {ops : List (Op α σ)}
    (h : UsesAnswered g ops) {id : Nat} (hid : .context id ∉ g.answers ops) :
    ops.filterMap (Op.within? id) = [] := by
  rw [List.filterMap_eq_nil_iff]
  intro op hop
  obtain ⟨before, after, rfl⟩ := List.append_of_mem hop
  cases op with
  | within i op =>
    rw [Op.within?, if_neg]
    rintro rfl
    rw [answers_append] at hid
    exact hid (List.mem_append_left _ h.mem_answers)
  | _ => rfl

theorem artifacts_run (g : Generation α σ) (ops : List (Op α σ)) :
    (g.run ops).artifacts = g.artifacts.run (ops.filterMap Op.artifact?) ∧
      answersTo (fun op => op.artifact?.isSome) ops (g.answers ops) =
        (g.artifacts.answers (ops.filterMap Op.artifact?)).map .ofArtifact := by
  have h := follows_run step Lru.step artifacts (fun _ => Op.artifact?) Answer.ofArtifact
    (fun _ _ => rfl) fun before op after (_ : ops = _) => follows_artifacts (g.run before) op
  rw [asked_eq_filterMap, ← answers_eq_answersWith, ← Lru.answers_eq_answersWith] at h
  exact h

theorem roots_run {g : Generation α σ} {ks : List RootKey} (hg : g.Tracks ks) (ops : List (Op α σ)) :
    (g.run ops).roots = g.roots.run (rootOps g.roots ops) ∧
      answersTo (fun op => (op.rootStore? 0).isSome) ops (g.answers ops) =
        (g.roots.answers (rootOps g.roots ops)).map .ofRoot := by
  have hconcerns : ∀ (c : Lru RootKey Nat) (op : Op α σ),
      (op.rootStore? c.stats.misses).isSome = (op.rootStore? 0).isSome := fun _ op => by
    cases op <;> rfl
  have h := follows_run step Lru.step roots (fun c => Op.rootStore? c.stats.misses) Answer.ofRoot
    hconcerns fun before op after (_ : ops = _) => follows_roots (hg.run before) op
  rw [← answers_eq_answersWith, ← Lru.answers_eq_answersWith] at h
  exact h

theorem context_run {g : Generation α σ} {ks : List RootKey} (hg : g.Tracks ks) {ops : List (Op α σ)}
    (hops : UsesAnswered g ops) (id : Nat) :
    (g.run ops).context id = (g.context id).run (ops.filterMap (Op.within? id)) ∧
      answersTo (fun op => (op.within? id).isSome) ops (g.answers ops) =
        ((g.context id).answers (ops.filterMap (Op.within? id))).map .within := by
  have hfollows : ∀ before op after, ops = before ++ op :: after → Follows step Context.step
      (fun g => g.context id) (fun _ => Op.within? id) Answer.within (g.run before) op := by
    intro before op after h
    -- A number that was answered is that of a context already made, so that its place is set.
    refine follows_context (hg.run before) fun o ho => ?_
    rw [h, ho] at hops
    exact lt_of_answered hg hops.mem_answers
  have h := follows_run step Context.step (fun g => g.context id) (fun _ => Op.within? id)
    Answer.within (fun _ _ => rfl) hfollows
  rw [asked_eq_filterMap, ← answers_eq_answersWith, ← Context.answers_eq_answersWith] at h
  exact h

/-- **The parts of a cache do not interfere.** In every run whose operations in contexts use numbers
answered before:

* each context ends, and its operations are answered, as if they were performed alone and in order on
  an empty context;
* operations elsewhere, evictions and clearings do not change it, and a retrieval that answers a
  number for the first time answers an empty context;
* the store of artifacts and the store of roots end, with their counts, and answer as stores of their
  own on which only their operations and the clearings are performed. -/
theorem run_isolated (artifactCapacity contextCapacity : Nat) {ops : List (Op α σ)}
    (hops : UsesAnswered (new artifactCapacity contextCapacity) ops) :
    let start : Generation α σ := new artifactCapacity contextCapacity
    (∀ id, (start.run ops).context id = Context.empty.run (ops.filterMap (Op.within? id)) ∧
      answersTo (fun op => (op.within? id).isSome) ops (start.answers ops) =
        (Context.empty.answers (ops.filterMap (Op.within? id))).map .within) ∧
    (∀ id op, op.within? id = none →
      ((start.run ops).step op).2.context id = (start.run ops).context id) ∧
    (∀ k, .context ((start.run ops).retrieve k).1 ∉ start.answers ops →
      ((start.run ops).retrieve k).2.context ((start.run ops).retrieve k).1 = .empty) ∧
    ((start.run ops).artifacts = (Lru.new artifactCapacity).run (ops.filterMap Op.artifact?) ∧
      answersTo (fun op => op.artifact?.isSome) ops (start.answers ops) =
        ((Lru.new artifactCapacity).answers (ops.filterMap Op.artifact?)).map .ofArtifact) ∧
    ((start.run ops).roots = (Lru.new contextCapacity).run (rootOps (.new contextCapacity) ops) ∧
      answersTo (fun op => (op.rootStore? 0).isSome) ops (start.answers ops) =
        ((Lru.new contextCapacity).answers (rootOps (.new contextCapacity) ops)).map .ofRoot) := by
  intro start
  have hstart : start.Tracks [] := tracks_new artifactCapacity contextCapacity
  have hframe : ∀ id op, op.within? id = none →
      ((start.run ops).step op).2.context id = (start.run ops).context id :=
    fun id op => context_step (hstart.run ops)
  refine ⟨fun id => context_run hstart hops id, hframe, fun k hk => ?_,
    artifacts_run start ops, roots_run hstart ops⟩
  have hkeep := hframe ((start.run ops).retrieve k).1 (.retrieve k) rfl
  rw [(context_run hstart hops _).1, hops.filterMap_within? hk] at hkeep
  exact hkeep

/-- Room for one context: that of `Order` is evicted by `User` and made anew. Who holds the first one
still finds the state there after the clearing, and the new one does not show it. -/
theorem run_isolated_evicted :
    let order := RootKey.ofType "Order"
    let path : Expression := ⟨[⟨"id", []⟩]⟩
    let ops : List (Op Nat Nat) := [.retrieve order, .within 0 (.insert path 1),
      .retrieve (.ofType "User"), .within 1 (.insert path 5), .retrieve order, .clear,
      .within 2 (.get path), .within 0 (.get path)]
    let start : Generation Nat Nat := new 1 1
    UsesAnswered start ops ∧
      (start.run ops).context 0 = Context.empty.run [.insert path 1, .get path] ∧
      answersTo (fun op => (op.within? 0).isSome) ops (start.answers ops) =
        [.within (.state none), .within (.state (some 1))] ∧
      answersTo (fun op => (op.within? 2).isSome) ops (start.answers ops) =
        [.within (.state none)] ∧
      (start.run ops).roots.stats = ⟨0, 3, 2⟩ := by
  intro order path ops start
  have hops : UsesAnswered start ops := by decide
  obtain ⟨hcontext, -, -, -, hroots⟩ := run_isolated 1 1 hops
  refine ⟨hops, (hcontext 0).1, (hcontext 0).2.trans ?_, (hcontext 2).2.trans ?_, ?_⟩
  · decide +kernel
  · decide +kernel
  · rw [hroots.1]
    decide +kernel

end TreePath.Generation
