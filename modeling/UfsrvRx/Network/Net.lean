import Mathlib.Logic.Relation

namespace UfsrvRx

/-!
# Networks of eventual outcomes

A network is built from named sources, each of which has an outcome sooner or later: a value or
an error.  Operators are pure functions of outcomes, and may go on with another network that
depends on a value or an error.  The meaning of a network is the outcome that it has by the
outcomes of the sources so far.  What has an outcome keeps it.
-/

universe u v w

/-- A network over sources, values and errors. -/
inductive Net (Source : Type u) (Value : Type v) (Error : Type w)
  | source (name : Source)
  | constant (outcome : Except Error Value)
  | map (input : Net Source Value Error) (mapper : Value -> Except Error Value)
  | flatMap (input : Net Source Value Error) (mapper : Value -> Net Source Value Error)
  | recover (input : Net Source Value Error) (recovery : Error -> Net Source Value Error)
  | through (input : Net Source Value Error)
  | zip (first second : Net Source Value Error) (zipper : Value -> Value -> Except Error Value)

namespace Net

variable {Source : Type u} {Value : Type v} {Error : Type w}

/-- The outcome of a network, once there is one. -/
def eval (known : Source -> Option (Except Error Value)) :
    Net Source Value Error -> Option (Except Error Value)
  | source name => known name
  | constant outcome => some outcome
  | map input mapper => (input.eval known).map fun outcome => outcome >>= mapper
  | flatMap input mapper =>
      match input.eval known with
      | some (.ok value) => (mapper value).eval known
      | some (.error error) => some (.error error)
      | none => none
  | recover input recovery =>
      match input.eval known with
      | some (.ok value) => some (.ok value)
      | some (.error error) => (recovery error).eval known
      | none => none
  | through input => input.eval known
  | zip first second zipper =>
      match first.eval known, second.eval known with
      | some one, some other => some (one >>= fun value => other >>= zipper value)
      | _, _ => none

/-- More sources have an outcome, and those that had one have the same. -/
def Extends (known more : Source -> Option (Except Error Value)) : Prop :=
  forall name outcome, known name = some outcome -> more name = some outcome

/-- The outcome of a network stays. -/
theorem eval_extends {known more : Source -> Option (Except Error Value)}
    (extended : Extends known more) {net : Net Source Value Error} {outcome : Except Error Value}
    (before : net.eval known = some outcome) : net.eval more = some outcome := by
  induction net generalizing outcome with
  | source name => exact extended name outcome before
  | constant fixed => exact before
  | map input mapper inductionHypothesis =>
      simp only [eval, Option.map_eq_some_iff] at before ⊢
      rcases before with ⟨first, read, same⟩
      exact ⟨first, inductionHypothesis read, same⟩
  | flatMap input mapper inputHypothesis mapperHypothesis =>
      cases read : input.eval known with
      | none =>
          simp only [eval, read] at before
          cases before
      | some first =>
          have after := inputHypothesis read
          cases first with
          | ok value =>
              simp only [eval, read, after] at before ⊢
              exact mapperHypothesis value before
          | error error =>
              simp only [eval, read, after] at before ⊢
              exact before
  | recover input recovery inputHypothesis recoveryHypothesis =>
      cases read : input.eval known with
      | none =>
          simp only [eval, read] at before
          cases before
      | some first =>
          have after := inputHypothesis read
          cases first with
          | ok value =>
              simp only [eval, read, after] at before ⊢
              exact before
          | error error =>
              simp only [eval, read, after] at before ⊢
              exact recoveryHypothesis error before
  | through input inductionHypothesis => exact inductionHypothesis before
  | zip first second zipper firstHypothesis secondHypothesis =>
      cases one : first.eval known with
      | none =>
          simp only [eval, one] at before
          cases before
      | some left =>
          cases other : second.eval known with
          | none =>
              simp only [eval, one, other] at before
              cases before
          | some right =>
              simp only [eval, one, other] at before
              simp only [eval, firstHypothesis one, secondHypothesis other]
              exact before

/-! ## What a network waits for -/

/-- The network goes on with another one, by the outcome of its input. -/
inductive Continues (known : Source -> Option (Except Error Value)) :
    Net Source Value Error -> Net Source Value Error -> Prop
  | flatMap {input : Net Source Value Error} {mapper : Value -> Net Source Value Error}
      {value : Value} : input.eval known = some (.ok value) ->
      Continues known (.flatMap input mapper) (mapper value)
  | recover {input : Net Source Value Error} {recovery : Error -> Net Source Value Error}
      {error : Error} : input.eval known = some (.error error) ->
      Continues known (.recover input recovery) (recovery error)

namespace Continues

variable {known more : Source -> Option (Except Error Value)} {net other : Net Source Value Error}

theorem later (continues : Continues known net other) (extended : Extends known more) :
    Continues more net other := by
  cases continues with
  | flatMap read => exact .flatMap (eval_extends extended read)
  | recover read => exact .recover (eval_extends extended read)

theorem same (continues : Continues known net other) : net.eval known = other.eval known := by
  cases continues with
  | flatMap read => simp only [eval, read]
  | recover read => simp only [eval, read]

end Continues

/-- The network has no outcome before the other one has. -/
inductive Needs (known : Source -> Option (Except Error Value)) :
    Net Source Value Error -> Net Source Value Error -> Prop
  | map {input mapper} : Needs known (.map input mapper) input
  | flatMap {input mapper} : Needs known (.flatMap input mapper) input
  | recover {input recovery} : Needs known (.recover input recovery) input
  | through {input} : Needs known (.through input) input
  | first {one other zipper} : Needs known (.zip one other zipper) one
  | second {one other zipper} : Needs known (.zip one other zipper) other
  | rest {net other} : Continues known net other -> Needs known net other

namespace Needs

variable {known : Source -> Option (Except Error Value)} {net other : Net Source Value Error}

theorem pending (needs : Needs known net other) (missing : other.eval known = none) :
    net.eval known = none := by
  cases needs with
  | map => simp only [eval, missing, Option.map_none]
  | flatMap | recover => simp only [eval, missing]
  | through => exact missing
  | first => simp only [eval, missing]
  | second =>
      simp only [eval, missing]
      split
      · rename_i absent
        cases absent
      · rfl
  | rest continues => rw [continues.same, missing]

/-- What holds of a network whenever it holds of those that it needs, holds of every network. -/
theorem induction (known : Source -> Option (Except Error Value))
    {property : Net Source Value Error -> Prop}
    (step : forall net, (forall other, Needs known net other -> property other) -> property net)
    (net : Net Source Value Error) : property net := by
  induction net with
  | source name =>
      refine step _ fun other needs => ?_
      cases needs with
      | rest continues => cases continues
  | constant fixed =>
      refine step _ fun other needs => ?_
      cases needs with
      | rest continues => cases continues
  | map input mapper inductionHypothesis =>
      refine step _ fun other needs => ?_
      cases needs with
      | map => exact inductionHypothesis
      | rest continues => cases continues
  | flatMap input mapper inputHypothesis mapperHypothesis =>
      refine step _ fun other needs => ?_
      cases needs with
      | flatMap => exact inputHypothesis
      | rest continues => cases continues with | flatMap read => exact mapperHypothesis _
  | recover input recovery inputHypothesis recoveryHypothesis =>
      refine step _ fun other needs => ?_
      cases needs with
      | recover => exact inputHypothesis
      | rest continues => cases continues with | recover read => exact recoveryHypothesis _
  | through input inductionHypothesis =>
      refine step _ fun other needs => ?_
      cases needs with
      | through => exact inductionHypothesis
      | rest continues => cases continues
  | zip one other zipper firstHypothesis secondHypothesis =>
      refine step _ fun other needs => ?_
      cases needs with
      | first => exact firstHypothesis
      | second => exact secondHypothesis
      | rest continues => cases continues

end Needs

/-- A network without an outcome needs a source that has none. -/
theorem missing_source {known : Source -> Option (Except Error Value)}
    {net : Net Source Value Error} (missing : net.eval known = none) : Exists fun name =>
      Relation.ReflTransGen (Needs known) net (.source name) ∧ known name = none := by
  induction net using Needs.induction known with
  | step net inductionHypothesis =>
      have passes {other : Net Source Value Error} (needs : Needs known net other)
          (absent : other.eval known = none) : Exists fun name =>
            Relation.ReflTransGen (Needs known) net (.source name) ∧ known name = none := by
        rcases inductionHypothesis other needs absent with ⟨name, path, unknown⟩
        exact ⟨name, .head needs path, unknown⟩
      cases net with
      | source name => exact ⟨name, .refl, missing⟩
      | constant fixed => cases missing
      | map input mapper => exact passes .map (Option.map_eq_none_iff.mp missing)
      | through input => exact passes .through missing
      | flatMap input mapper =>
          cases read : input.eval known with
          | none => exact passes .flatMap read
          | some outcome =>
              simp only [eval, read] at missing
              cases outcome with
              | ok value => exact passes (.rest (.flatMap read)) missing
              | error error => cases missing
      | recover input recovery =>
          cases read : input.eval known with
          | none => exact passes .recover read
          | some outcome =>
              simp only [eval, read] at missing
              cases outcome with
              | ok value => cases missing
              | error error => exact passes (.rest (.recover read)) missing
      | zip one other zipper =>
          cases left : one.eval known with
          | none => exact passes .first left
          | some first =>
              cases right : other.eval known with
              | none => exact passes .second right
              | some second =>
                  simp only [eval, left, right] at missing
                  cases missing

end Net

end UfsrvRx
