import ScopedCss.Proofs.Rule.Search
import ScopedCss.Stylesheet

set_option autoImplicit false

/-!
# The walk through a text

Walking through a text asks for an answer to each of its rules, once and in order, and writes the
answers one after the other (`replaceEach_eq_mapM`), whatever the answers depend on. So the lines
for the rules of a text are the same with and without collecting the rules first.
-/

namespace ScopedCss

namespace Rule

open Occurrence

variable {m : Type → Type} [Monad m]

theorem replaceEachFrom_of_next?_eq_none {text : Text} (search : next? text = none)
    (answer : Rule → m Text) (written : Text) :
    replaceEachFrom answer written text = pure written := by
  rw [replaceEachFrom]
  split <;> simp_all

theorem replaceEachFrom_of_next?_eq_some {text : Text} {found : Found}
    (search : next? text = some found) (answer : Rule → m Text) (written : Text) :
    replaceEachFrom answer written text = (do
      let piece ← answer found.occurrence.rule
      replaceEachFrom answer (written ++ piece) found.rest) := by
  rw [replaceEachFrom]
  split <;> simp_all

theorem replaceEachFrom_eq_mapM [LawfulMonad m] (answer : Rule → m Text) (written text : Text) :
    replaceEachFrom answer written text =
      (do let pieces ← (allIn text).mapM answer; pure (written ++ pieces.flatten)) := by
  induction text using Segmentation.of.induct generalizing written with
  | case1 text search =>
      rw [replaceEachFrom_of_next?_eq_none search, allIn_of_next?_eq_none search]
      simp
  | case2 text found search ih =>
      rw [replaceEachFrom_of_next?_eq_some search, allIn_of_next?_eq_some search]
      simp [ih]

theorem replaceEach_eq_mapM [LawfulMonad m] (answer : Rule → m Text) (text : Text) :
    replaceEach answer text = (do let pieces ← (allIn text).mapM answer; pure pieces.flatten) := by
  rw [replaceEach, replaceEachFrom_eq_mapM]
  simp

/-- An answer that depends on a state, and with it a list of the rules that were asked about. -/
def noting {σ : Type} (answer : Rule → StateM σ Text) (rule : Rule) :
    StateM (σ × List Rule) Text :=
  fun (state, asked) =>
    let (piece, next) := (answer rule).run state
    (piece, next, asked ++ [rule])

theorem run_mapM_noting {σ : Type} (answer : Rule → StateM σ Text) (rules : List Rule)
    (state : σ) (asked : List Rule) :
    (rules.mapM (noting answer)).run (state, asked) =
      (((rules.mapM answer).run state).1, ((rules.mapM answer).run state).2, asked ++ rules) := by
  induction rules generalizing state asked with
  | nil => rw [List.append_nil]; rfl
  | cons rule rules ih =>
      have step : (noting answer rule).run (state, asked) =
          (((answer rule).run state).1, ((answer rule).run state).2, asked ++ [rule]) := rfl
      rw [List.mapM_cons, StateT.run_bind, step]
      simp only [StateT.run_bind, List.mapM_cons, ih]
      rw [List.append_cons asked rule rules]
      rfl

end Rule

namespace Stylesheet

theorem scopeRules_eq (wrapper text : Text) :
    scopeRules wrapper text = ((Rule.allIn text).map (Rule.line wrapper)).flatten := by
  rw [scopeRules, Rule.replaceEach_eq_mapM]
  simp

theorem scope_eq (wrapper text : Text) :
    scope wrapper text = header ++ scopeRules wrapper text := by
  rw [scope, ofRules, scopeRules_eq]

theorem afterStart?_header_ofRules (wrapper : Text) (rules : List Rule) :
    Text.afterStart? header (ofRules wrapper rules) =
      some (rules.map (Rule.line wrapper)).flatten :=
  Text.afterStart?_eq_some_iff.mpr rfl

theorem ofRules_append (wrapper : Text) (earlier later : List Rule) :
    ofRules wrapper (earlier ++ later) =
      ofRules wrapper earlier ++ (later.map (Rule.line wrapper)).flatten := by
  simp [ofRules]

/-- The walk asks about the rules of the text, each once and in their order, hands the state on from
answer to answer, and writes the answers one after the other. So it makes no difference whether the
rules are written as they are found or collected first, all at once or in two parts. -/
theorem replaceEach_agrees (text : Text) :
    (∀ {σ : Type} (answer : Rule → StateM σ Text) (state : σ), ∃ pieces last,
      ((Rule.allIn text).mapM answer).run state = (pieces, last) ∧
        (Rule.replaceEach answer text).run state = (pieces.flatten, last) ∧
        (Rule.replaceEach (Rule.noting answer) text).run (state, []) =
          (pieces.flatten, last, Rule.allIn text)) ∧
    ∀ wrapper, scope wrapper text = header ++ scopeRules wrapper text ∧
      ∀ earlier later, ∃ lines, Text.afterStart? header (ofRules wrapper later) = some lines ∧
        ofRules wrapper (earlier ++ later) = ofRules wrapper earlier ++ lines := by
  refine ⟨?_, ?_⟩
  · intro σ answer state
    refine ⟨_, _, rfl, ?_, ?_⟩
    · rw [Rule.replaceEach_eq_mapM]
      rfl
    · rw [Rule.replaceEach_eq_mapM, StateT.run_bind, Rule.run_mapM_noting, List.nil_append]
      rfl
  · intro wrapper
    refine ⟨scope_eq wrapper text, ?_⟩
    intro earlier later
    exact ⟨_, afterStart?_header_ofRules wrapper later, ofRules_append wrapper earlier later⟩

end Stylesheet

end ScopedCss
