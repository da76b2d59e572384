import TreePath.Cache.Generation
import Mathlib.Tactic.SplitIfs

/-! # Parts of a machine

A machine performs operations in turn and answers each of them. A part of it is a machine of its own,
which shows in the state of the whole and is asked to perform some of the operations. If the others
do not touch it, then a run of the whole is, for the part, a run of the operations that it is asked.

* `runWith`, `answersWith`: the run of a machine given by its step, and the answers of the run.
* `asked`: what a part is asked to do in a run of the whole.
* `Follows`: an operation is performed by the part, or does not touch it.
* `follows_run`: the part is left by a run as by its own run, with the same answers. -/

namespace TreePath

variable {S O A T P B : Type}

/-- The state after operations performed in turn. -/
def runWith (step : S → O → A × S) (s : S) (ops : List O) : S :=
  ops.foldl (fun s op => (step s op).2) s

/-- The answers to operations performed in turn. -/
def answersWith (step : S → O → A × S) : S → List O → List A
  | _, [] => []
  | s, op :: ops => (step s op).1 :: answersWith step (step s op).2 ops

theorem answersWith_append (step : S → O → A × S) (after : List O) : ∀ (s : S) (before : List O),
    answersWith step s (before ++ after) =
      answersWith step s before ++ answersWith step (runWith step s before) after
  | _, [] => rfl
  | s, op :: before => by
    rw [List.cons_append, answersWith, answersWith, answersWith_append step after (step s op).2 before]
    rfl

theorem length_answersWith (step : S → O → A × S) : ∀ (s : S) (ops : List O),
    (answersWith step s ops).length = ops.length
  | _, [] => rfl
  | s, op :: ops => congrArg (· + 1) (length_answersWith step (step s op).2 ops)

theorem Lru.answers_eq_answersWith {κ α : Type} [DecidableEq κ] : ∀ (c : Lru κ α)
    (ops : List (Op κ α)), c.answers ops = answersWith Lru.step c ops
  | _, [] => rfl
  | c, op :: ops => by rw [answers, answersWith, answers_eq_answersWith (c.step op).2 ops]

theorem Context.answers_eq_answersWith {σ : Type} : ∀ (c : Context σ) (ops : List (Op σ)),
    c.answers ops = answersWith Context.step c ops
  | _, [] => rfl
  | c, op :: ops => by rw [answers, answersWith, answers_eq_answersWith (c.step op).2 ops]

theorem Generation.answers_eq_answersWith {α σ : Type} : ∀ (g : Generation α σ)
    (ops : List (Op α σ)), g.answers ops = answersWith Generation.step g ops
  | _, [] => rfl
  | g, op :: ops => by rw [answers, answersWith, answers_eq_answersWith (g.step op).2 ops]

/-! ### Parts -/

/-- What a part is asked to do in a run, told from its state and the operation on the whole. -/
def asked (part : T → P → B × T) (ask : T → O → Option P) : T → List O → List P
  | _, [] => []
  | t, op :: ops =>
    match ask t op with
    | none => asked part ask t ops
    | some p => p :: asked part ask (part t p).2 ops

theorem asked_eq_filterMap (part : T → P → B × T) (ask : O → Option P) : ∀ (t : T) (ops : List O),
    asked part (fun _ => ask) t ops = ops.filterMap ask
  | _, [] => rfl
  | t, op :: ops => by
    rw [asked, List.filterMap_cons]
    rcases ask op with _ | p
    · exact asked_eq_filterMap part ask t ops
    · exact congrArg (p :: ·) (asked_eq_filterMap part ask (part t p).2 ops)

/-- The answers to those of some operations that concern a part. -/
def answersTo (concerns : O → Bool) (ops : List O) (answers : List A) : List A :=
  ((ops.zip answers).filter fun e => concerns e.1).map Prod.snd

theorem answersTo_cons (concerns : O → Bool) (op : O) (a : A) (ops : List O) (as : List A) :
    answersTo concerns (op :: ops) (a :: as) =
      if concerns op then a :: answersTo concerns ops as else answersTo concerns ops as := by
  unfold answersTo
  rw [List.zip_cons_cons, List.filter_cons]
  split_ifs <;> rfl

section Follows
variable (step : S → O → A × S) (part : T → P → B × T) (view : S → T) (ask : T → O → Option P)
  (told : B → A)

/-- **The part follows an operation**: it is left alone, or performs what it is asked and answers for
the whole. -/
inductive Follows (s : S) (op : O) : Prop
  | skip : ask (view s) op = none → view (step s op).2 = view s → Follows s op
  | perform {p : P} : ask (view s) op = some p → (step s op).1 = told (part (view s) p).1 →
    view (step s op).2 = (part (view s) p).2 → Follows s op

/-- **A run of the whole is a run of the part**, if the part follows each operation where it is
performed. -/
theorem follows_run {concerns : O → Bool} (hconcerns : ∀ t op, (ask t op).isSome = concerns op) :
    ∀ {ops : List O} {s : S}, (∀ before op after, ops = before ++ op :: after →
        Follows step part view ask told (runWith step s before) op) →
      view (runWith step s ops) = runWith part (view s) (asked part ask (view s) ops) ∧
      answersTo concerns ops (answersWith step s ops) =
        (answersWith part (view s) (asked part ask (view s) ops)).map told
  | [], _, _ => ⟨rfl, rfl⟩
  | op :: ops, s, h => by
    have hop : Follows step part view ask told s op := h [] op ops rfl
    have htail : ∀ before o after, ops = before ++ o :: after →
        Follows step part view ask told (runWith step (step s op).2 before) o :=
      fun before o after ho => h (op :: before) o after (congrArg (op :: ·) ho)
    obtain ⟨hview, hanswers⟩ := follows_run hconcerns htail
    rw [answersWith, answersTo_cons, ← hconcerns (view s) op, asked]
    rcases hop with ⟨hask, hskip⟩ | ⟨hask, hanswer, hstep⟩
    · rw [hskip] at hview hanswers
      rw [hask]
      exact ⟨hview, hanswers⟩
    · rw [hstep] at hview hanswers
      rw [hask, hanswer, Option.isSome_some, if_pos rfl, answersWith, List.map_cons]
      exact ⟨hview, congrArg _ hanswers⟩

end Follows

end TreePath
