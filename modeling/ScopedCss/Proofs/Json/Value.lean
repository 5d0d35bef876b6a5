import ScopedCss.Json.Skip
import ScopedCss.Proofs.Json.Basic
import ScopedCss.Proofs.Json.Scalar

set_option autoImplicit false

/-!
# JSON values

The grammar of values is recursive: a value may hold further values in brackets, at any depth.
Skipping goes through a value token by token with a list of open brackets, and passes over what the
grammar derives and nothing else.
-/

namespace ScopedCss.Json

/-! ## The grammar -/

def Bracket.opening : Bracket → Char
  | .array => '['
  | .object => '\x7b'

/-- A string in its quotes, with white space before it, where a key has to stand. -/
inductive KeyString (care : Care) (name : Text) : Text → Prop where
  | spelled {lead key source : Text} (leadSpace : Space lead) (spelling : Spelling care name key)
      (joined : source = lead ++ '"' :: (key ++ ['"'])) : KeyString care name source

/-- The key of a member with the colon behind it, and white space around both. -/
inductive KeySource (care : Care) (name : Text) : Text → Prop where
  | spelled {lead key beforeColon afterColon source : Text} (leadSpace : Space lead)
      (spelling : Spelling care name key) (beforeSpace : Space beforeColon)
      (afterSpace : Space afterColon)
      (joined : source = lead ++ '"' :: (key ++ '"' :: (beforeColon ++ ':' :: afterColon))) :
      KeySource care name source

/-- What stands before a value between brackets. -/
inductive IsLead : Bracket → Text → Prop where
  | element {lead : Text} (space : Space lead) : IsLead .array lead
  | member {name lead : Text} (key : KeySource .lenient name lead) : IsLead .object lead

inductive Nonterminal where
  | value
  /-- One or more elements or members, separated by commas. -/
  | items (bracket : Bracket)

inductive Derives : Nonterminal → Text → Prop where
  | scalar {source : Text} (isScalar : IsScalar source) : Derives .value source
  | empty (bracket : Bracket) {inner source : Text} (space : Space inner)
      (joined : source = bracket.opening :: (inner ++ [bracket.closing])) : Derives .value source
  | filled {bracket : Bracket} {inner source : Text} (items : Derives (.items bracket) inner)
      (joined : source = bracket.opening :: (inner ++ [bracket.closing])) : Derives .value source
  | last {bracket : Bracket} {lead value tail source : Text} (isLead : IsLead bracket lead)
      (isValue : Derives .value value) (space : Space tail)
      (joined : source = lead ++ (value ++ tail)) : Derives (.items bracket) source
  | more {bracket : Bracket} {lead value tail later source : Text} (isLead : IsLead bracket lead)
      (isValue : Derives .value value) (space : Space tail)
      (items : Derives (.items bracket) later)
      (joined : source = lead ++ (value ++ (tail ++ ',' :: later))) :
      Derives (.items bracket) source

abbrev IsValue (source : Text) : Prop := Derives .value source

/-! ## Brackets and keys -/

theorem openedBy?_eq_some_iff {character : Char} {bracket : Bracket} :
    Bracket.openedBy? character = some bracket ↔ character = bracket.opening := by
  constructor
  · intro opened
    unfold Bracket.openedBy? at opened
    split at opened
    · cases opened
      rfl
    · cases opened
      rfl
    · cases opened
  · rintro rfl
    cases bracket with
    | array => rfl
    | object => rfl

theorem isSpace_opening (bracket : Bracket) : isSpace bracket.opening = false := by
  cases bracket with
  | array => rfl
  | object => rfl

theorem isSpace_closing (bracket : Bracket) : isSpace bracket.closing = false := by
  cases bracket with
  | array => rfl
  | object => rfl

theorem closing_ne_comma (bracket : Bracket) : bracket.closing ≠ ',' := by
  cases bracket with
  | array => decide
  | object => decide

theorem key_eq_bind (care : Care) (text : Text) :
    key care text = (mark '"' text >>= quoted care) >>= fun read =>
      mark ':' read.2 >>= fun rest => .ok (read.1, rest) := by
  unfold key
  cases mark '"' text with
  | error fault => rfl
  | ok rest => rfl

theorem KeyString.read_append {care : Care} {name source : Text}
    (isKey : KeyString care name source) (rest : Text) :
    mark '"' (source ++ rest) >>= quoted care = .ok (name, rest) := by
  cases isKey with
  | @spelled lead key _ leadSpace spelling joined =>
      have quoteRead := (mark_eq_ok_iff rfl).mpr
        ⟨lead, leadSpace, Eq.refl (lead ++ '"' :: (key ++ '"' :: rest))⟩
      have contentRead := quoted_eq_ok_iff.mpr ⟨key, spelling, Eq.refl (key ++ '"' :: rest)⟩
      simp [joined, quoteRead, contentRead, bind, Except.bind]

theorem KeyString.exists_skipSpace_eq_cons {care : Care} {name source : Text}
    (isKey : KeyString care name source) (rest : Text) :
    ∃ later, skipSpace (source ++ rest) = '"' :: later := by
  cases isKey with
  | spelled leadSpace spelling joined =>
      subst joined
      simp only [List.append_assoc, List.cons_append]
      exact ⟨_, leadSpace.skipSpace_append_cons rfl _⟩

theorem KeySource.exists_keyString {care : Care} {name source : Text}
    (keySource : KeySource care name source) :
    ∃ key before after, KeyString care name key ∧ Space before ∧ Space after ∧
      source = key ++ (before ++ ':' :: after) := by
  cases keySource with
  | spelled leadSpace spelling beforeSpace afterSpace joined =>
      exact ⟨_, _, _, .spelled leadSpace spelling rfl, beforeSpace, afterSpace, by simp [joined]⟩

theorem key_sound {care : Care} {text name rest : Text}
    (read : key care text = .ok (name, rest)) :
    ∃ source, KeySource care name source ∧ text = source ++ rest := by
  unfold key at read
  obtain ⟨afterQuote, quoteRead, read⟩ := bind_ok read
  obtain ⟨⟨content, afterContent⟩, contentRead, read⟩ := bind_ok read
  obtain ⟨afterColon, colonRead, read⟩ := bind_ok read
  cases read
  obtain ⟨lead, leadSpace, rfl⟩ := (mark_eq_ok_iff rfl).mp quoteRead
  obtain ⟨key, spelling, rfl⟩ := quoted_eq_ok_iff.mp contentRead
  obtain ⟨beforeColon, beforeSpace, rfl⟩ := (mark_eq_ok_iff rfl).mp colonRead
  exact ⟨_, .spelled leadSpace spelling beforeSpace space_nil rfl, by simp⟩

theorem KeySource.exists_key_append {care : Care} {name source : Text}
    (keySource : KeySource care name source) :
    ∃ space, Space space ∧ ∀ rest, key care (source ++ rest) = .ok (name, space ++ rest) := by
  cases keySource with
  | @spelled lead key beforeColon afterColon _ leadSpace spelling beforeSpace afterSpace joined =>
      refine ⟨afterColon, afterSpace, ?_⟩
      intro rest
      have quoteRead := (mark_eq_ok_iff rfl).mpr ⟨lead, leadSpace,
        Eq.refl (lead ++ '"' :: (key ++ '"' :: (beforeColon ++ ':' :: (afterColon ++ rest))))⟩
      have contentRead := quoted_eq_ok_iff.mpr ⟨key, spelling,
        Eq.refl (key ++ '"' :: (beforeColon ++ ':' :: (afterColon ++ rest)))⟩
      have colonRead := (mark_eq_ok_iff rfl).mpr ⟨beforeColon, beforeSpace,
        Eq.refl (beforeColon ++ ':' :: (afterColon ++ rest))⟩
      simp [joined, Json.key, quoteRead, contentRead, colonRead, bind, Except.bind, pure,
        Except.pure]

theorem KeySource.append {care : Care} {name source space : Text}
    (keySource : KeySource care name source) (isSpace : Space space) :
    KeySource care name (source ++ space) := by
  cases keySource with
  | spelled leadSpace spelling beforeSpace afterSpace joined =>
      exact .spelled leadSpace spelling beforeSpace (afterSpace.append isSpace) (by simp [joined])

theorem KeySource.exists_skipSpace_eq_cons {care : Care} {name source : Text}
    (keySource : KeySource care name source) (rest : Text) :
    ∃ later, skipSpace (source ++ rest) = '"' :: later := by
  cases keySource with
  | spelled leadSpace spelling beforeSpace afterSpace joined =>
      subst joined
      simp only [List.append_assoc, List.cons_append]
      exact ⟨_, leadSpace.skipSpace_append_cons rfl _⟩

theorem IsLead.append {bracket : Bracket} {lead space : Text} (isLead : IsLead bracket lead)
    (isSpace : Space space) : IsLead bracket (lead ++ space) := by
  cases isLead with
  | element leadSpace => exact .element (leadSpace.append isSpace)
  | member key => exact .member (key.append isSpace)

theorem beforeValue_sound {bracket : Bracket} {text rest : Text}
    (read : bracket.beforeValue text = .ok rest) :
    ∃ lead, IsLead bracket lead ∧ text = lead ++ rest := by
  cases bracket with
  | array =>
      cases read
      exact ⟨[], .element space_nil, rfl⟩
  | object =>
      obtain ⟨⟨name, after⟩, keyRead, kept⟩ := bind_ok read
      cases kept
      obtain ⟨source, keySource, joined⟩ := key_sound keyRead
      exact ⟨source, .member keySource, joined⟩

theorem IsLead.exists_beforeValue_append {bracket : Bracket} {lead : Text}
    (isLead : IsLead bracket lead) :
    ∃ space, Space space ∧ ∀ rest, bracket.beforeValue (lead ++ rest) = .ok (space ++ rest) := by
  cases isLead with
  | element space => exact ⟨lead, space, fun rest => rfl⟩
  | member key =>
      obtain ⟨space, isSpace, read⟩ := key.exists_key_append
      refine ⟨space, isSpace, ?_⟩
      intro rest
      simp [Bracket.beforeValue, read, bind, Except.bind, pure, Except.pure]

/-! ## How values start and what ends them -/

/-- A character that is neither white space nor a bracket. -/
structure IsInner (character : Char) : Prop where
  solid : isSpace character = false
  notOpening : Bracket.openedBy? character = none
  notClosing : ∀ bracket : Bracket, character ≠ bracket.closing

theorem isInner_of_isDigit {character : Char} (isDigit : character.isDigit = true) :
    IsInner character where
  solid := by
    simp only [isSpace, Bool.or_eq_false_iff, beq_eq_false_iff_ne]
    exact ⟨⟨⟨ne_of_isDigit isDigit rfl, ne_of_isDigit isDigit rfl⟩, ne_of_isDigit isDigit rfl⟩,
      ne_of_isDigit isDigit rfl⟩
  notOpening := by
    rw [Option.eq_none_iff_forall_ne_some]
    intro bracket opened
    have same := openedBy?_eq_some_iff.mp opened
    cases bracket with
    | array => exact ne_of_isDigit isDigit rfl same
    | object => exact ne_of_isDigit isDigit rfl same
  notClosing := by
    intro bracket
    cases bracket with
    | array => exact ne_of_isDigit isDigit rfl
    | object => exact ne_of_isDigit isDigit rfl

theorem IsScalar.exists_cons {source : Text} (isScalar : IsScalar source) :
    ∃ first later, source = first :: later ∧ IsInner first := by
  cases isScalar with
  | word listed =>
      simp only [List.mem_cons, List.not_mem_nil, or_false] at listed
      rcases listed with rfl | rfl | rfl
      · exact ⟨'n', _, rfl, rfl, rfl, by rintro ⟨⟩ <;> decide⟩
      · exact ⟨'t', _, rfl, rfl, rfl, by rintro ⟨⟩ <;> decide⟩
      · exact ⟨'f', _, rfl, rfl, rfl, by rintro ⟨⟩ <;> decide⟩
  | positive isUnsigned =>
      obtain ⟨first, later, joined, isDigit⟩ := isUnsigned.exists_cons
      exact ⟨first, later, joined, isInner_of_isDigit isDigit⟩
  | negative _ => exact ⟨'-', _, rfl, rfl, rfl, by rintro ⟨⟩ <;> decide⟩
  | string _ => exact ⟨'"', _, rfl, rfl, rfl, by rintro ⟨⟩ <;> decide⟩

theorem opening_ne_closing (opened closed : Bracket) : opened.opening ≠ closed.closing := by
  cases opened with
  | array => cases closed <;> decide
  | object => cases closed <;> decide

theorem IsValue.exists_cons {source : Text} (isValue : IsValue source) :
    ∃ first later, source = first :: later ∧ isSpace first = false ∧
      ∀ bracket : Bracket, first ≠ bracket.closing := by
  cases isValue with
  | scalar isScalar =>
      obtain ⟨first, later, joined, inner⟩ := isScalar.exists_cons
      exact ⟨first, later, joined, inner.solid, inner.notClosing⟩
  | empty bracket _ joined =>
      exact ⟨_, _, joined, isSpace_opening bracket, opening_ne_closing bracket⟩
  | @filled bracket _ _ _ joined =>
      exact ⟨_, _, joined, isSpace_opening bracket, opening_ne_closing bracket⟩

theorem IsLead.exists_skipSpace_eq_cons {bracket : Bracket} {lead value : Text}
    (isLead : IsLead bracket lead)
    (starts : ∃ first later, value = first :: later ∧ isSpace first = false ∧
      ∀ bracket : Bracket, first ≠ bracket.closing) (rest : Text) :
    ∃ first later, skipSpace (lead ++ (value ++ rest)) = first :: later ∧
      first ≠ bracket.closing := by
  cases isLead with
  | element space =>
      obtain ⟨first, later, rfl, solid, notClosing⟩ := starts
      exact ⟨first, later ++ rest, space.skipSpace_append_cons solid (later ++ rest),
        notClosing .array⟩
  | member key =>
      obtain ⟨later, start⟩ := key.exists_skipSpace_eq_cons (value ++ rest)
      exact ⟨'"', later, start, by decide⟩

theorem Derives.exists_skipSpace_eq_cons {bracket : Bracket} {items : Text}
    (areItems : Derives (.items bracket) items) (rest : Text) :
    ∃ first later, skipSpace (items ++ rest) = first :: later ∧ first ≠ bracket.closing := by
  cases areItems with
  | last isLead isValue _ joined =>
      rw [joined, List.append_assoc, List.append_assoc]
      exact isLead.exists_skipSpace_eq_cons (IsValue.exists_cons isValue) _
  | more isLead isValue _ _ joined =>
      rw [joined, List.append_assoc, List.append_assoc]
      exact isLead.exists_skipSpace_eq_cons (IsValue.exists_cons isValue) _

theorem endsNumber_of_isSpace {character : Char} (space : isSpace character = true) (rest : Text) :
    EndsNumber (character :: rest) := by
  rintro _ ⟨⟩
  simp only [isSpace, Bool.or_eq_true, beq_iff_eq] at space
  rcases space with ((rfl | rfl) | rfl) | rfl <;> decide

theorem endsNumber_closing (bracket : Bracket) (rest : Text) :
    EndsNumber (bracket.closing :: rest) := by
  rintro _ ⟨⟩
  cases bracket with
  | array => decide
  | object => decide

theorem endsNumber_comma (rest : Text) : EndsNumber (',' :: rest) := by
  rintro _ ⟨⟩
  decide

theorem Space.endsNumber_append {tail rest : Text} (space : Space tail) (ends : EndsNumber rest) :
    EndsNumber (tail ++ rest) := by
  cases tail with
  | nil => exact ends
  | cons character tail =>
      exact endsNumber_of_isSpace (space character List.mem_cons_self) (tail ++ rest)

/-! ## Steps of a skipping -/

namespace Skipping

theorem run_done (text : Text) : run ⟨.ended, [], text⟩ = .ok text := by
  rw [run, dif_pos (show isDone ⟨.ended, [], text⟩ = true from rfl)]

theorem run_eq_bind {skipping : Skipping} (running : skipping.isDone = false) :
    skipping.run = skipping.step >>= run := by
  rw [run, dif_neg (by simp [running])]
  split
  · rename_i refused
    simp [refused, bind, Except.bind]
  · rename_i passed
    simp [passed, bind, Except.bind]

/-- Goes on from what stands before a value between brackets. -/
def enter (bracket : Bracket) (brackets : List Bracket) (text : Text) : Except Fault Text :=
  bracket.beforeValue text >>= fun rest => run ⟨.value, bracket :: brackets, rest⟩

section Steps

variable {bracket : Bracket} {brackets : List Bracket} {text after : Text} {character : Char}
  {place : Place}

theorem run_of_nil (running : isDone ⟨place, brackets, text⟩ = false) (none : skipSpace text = []) :
    run ⟨place, brackets, text⟩ = .error .unfinished := by
  rw [run_eq_bind running, step, none]
  rfl

theorem run_value_of_opening (start : skipSpace text = bracket.opening :: after) :
    run ⟨.value, brackets, text⟩ = run ⟨.opened bracket, brackets, after⟩ := by
  rw [run_eq_bind rfl, step, start]
  simp only [openedBy?_eq_some_iff.mpr (Eq.refl bracket.opening), bind, Except.bind]

theorem run_value_of_scalar (start : skipSpace text = character :: after)
    (notOpening : Bracket.openedBy? character = none) :
    run ⟨.value, brackets, text⟩ =
      scalar .lenient (character :: after) >>= fun rest => run ⟨.ended, brackets, rest⟩ := by
  rw [run_eq_bind rfl, step, start]
  simp only [notOpening]
  cases scalar .lenient (character :: after) with
  | error fault => rfl
  | ok rest => rfl

theorem run_opened_of_closing (start : skipSpace text = bracket.closing :: after) :
    run ⟨.opened bracket, brackets, text⟩ = run ⟨.ended, brackets, after⟩ := by
  rw [run_eq_bind rfl, step, start]
  simp only [↓reduceIte, bind, Except.bind]

theorem run_ended_of_closing (start : skipSpace text = bracket.closing :: after) :
    run ⟨.ended, bracket :: brackets, text⟩ = run ⟨.ended, brackets, after⟩ := by
  rw [run_eq_bind rfl, step, start]
  simp only [↓reduceIte, bind, Except.bind]

theorem run_ended_of_comma (start : skipSpace text = ',' :: after) :
    run ⟨.ended, bracket :: brackets, text⟩ = enter bracket brackets after := by
  rw [run_eq_bind rfl, step, start]
  simp only [if_neg (closing_ne_comma bracket).symm, ↓reduceIte, enter]
  cases bracket.beforeValue after with
  | error fault => rfl
  | ok rest => rfl

theorem run_ended_of_ne (start : skipSpace text = character :: after)
    (notClosing : character ≠ bracket.closing) (notComma : character ≠ ',') :
    run ⟨.ended, bracket :: brackets, text⟩ = .error .malformed := by
  rw [run_eq_bind rfl, step, start]
  simp only [if_neg notClosing, if_neg notComma, bind, Except.bind]

theorem run_value_skipSpace (brackets : List Bracket) (text : Text) :
    run ⟨.value, brackets, skipSpace text⟩ = run ⟨.value, brackets, text⟩ := by
  have same : step ⟨.value, brackets, skipSpace text⟩ = step ⟨.value, brackets, text⟩ := by
    simp only [step, skipSpace_skipSpace]
    cases skipSpace text with
    | nil => rfl
    | cons character after => rfl
  rw [run_eq_bind rfl, run_eq_bind rfl, same]

theorem enter_skipSpace (bracket : Bracket) (brackets : List Bracket) (text : Text) :
    enter bracket brackets (skipSpace text) = enter bracket brackets text := by
  cases bracket with
  | array => exact run_value_skipSpace (.array :: brackets) text
  | object => simp only [enter, Bracket.beforeValue, key, mark_skipSpace]

theorem run_opened_of_ne (start : skipSpace text = character :: after)
    (notClosing : character ≠ bracket.closing) :
    run ⟨.opened bracket, brackets, text⟩ = enter bracket brackets text := by
  rw [← enter_skipSpace, run_eq_bind rfl, step, start]
  simp only [if_neg notClosing, enter]
  cases bracket.beforeValue (character :: after) with
  | error fault => rfl
  | ok rest => rfl

/-- A skipping that goes on has a token in front of it. -/
theorem exists_cons_of_run {rest : Text} (running : isDone ⟨place, brackets, text⟩ = false)
    (read : run ⟨place, brackets, text⟩ = .ok rest) :
    ∃ lead character after, Space lead ∧ text = lead ++ character :: after ∧
      skipSpace text = character :: after := by
  cases start : skipSpace text with
  | nil =>
      rw [run_of_nil running start] at read
      cases read
  | cons character after =>
      obtain ⟨lead, space, joined⟩ := exists_space_of_skipSpace_eq start
      exact ⟨lead, character, after, space, joined, rfl⟩

end Steps

/-! ## What is passed over is a value -/

mutual

theorem exists_value_of_run {brackets : List Bracket} {text rest : Text}
    (read : run ⟨.value, brackets, text⟩ = .ok rest) :
    ∃ lead value after, Space lead ∧ IsValue value ∧ text = lead ++ (value ++ after) ∧
      run ⟨.ended, brackets, after⟩ = .ok rest := by
  obtain ⟨lead, character, after, space, joined, start⟩ := exists_cons_of_run rfl read
  cases opened : Bracket.openedBy? character with
  | none =>
      rw [run_value_of_scalar start opened] at read
      obtain ⟨ended, scalarRead, read⟩ := bind_ok read
      obtain ⟨source, isScalar, split⟩ := scalar_sound scalarRead
      exact ⟨lead, source, ended, space, .scalar isScalar, by rw [joined, split], read⟩
  | some bracket =>
      obtain rfl := openedBy?_eq_some_iff.mp opened
      rw [run_value_of_opening start] at read
      obtain ⟨blank, first, later, isSpace, split, inner⟩ := exists_cons_of_run rfl read
      by_cases closing : first = bracket.closing
      · subst closing
        rw [run_opened_of_closing inner] at read
        exact ⟨lead, _, later, space, .empty bracket isSpace rfl, by simp [joined, split], read⟩
      · rw [run_opened_of_ne inner closing] at read
        obtain ⟨items, ended, areItems, itemsSplit, read⟩ := exists_items_of_enter read
        exact ⟨lead, _, ended, space, .filled areItems rfl, by simp [joined, itemsSplit], read⟩
termination_by 2 * text.length
decreasing_by
  rw [joined]
  simp only [List.length_append, List.length_cons]
  omega

theorem exists_items_of_enter {bracket : Bracket} {brackets : List Bracket} {text rest : Text}
    (read : enter bracket brackets text = .ok rest) :
    ∃ items after, Derives (.items bracket) items ∧ text = items ++ bracket.closing :: after ∧
      run ⟨.ended, brackets, after⟩ = .ok rest := by
  obtain ⟨unread, leadRead, read⟩ := bind_ok read
  obtain ⟨lead, isLead, split⟩ := beforeValue_sound leadRead
  obtain ⟨space, value, ended, isSpace, isValue, valueSplit, read⟩ := exists_value_of_run read
  -- Kept for the items behind a comma: they start after what has been split off here.
  have shorter := congrArg List.length (split.trans (congrArg (lead ++ ·) valueSplit))
  obtain ⟨tail, character, after, tailSpace, joined, start⟩ := exists_cons_of_run rfl read
  have leadHere := isLead.append isSpace
  by_cases closing : character = bracket.closing
  · subst closing
    rw [run_ended_of_closing start] at read
    exact ⟨_, after, .last leadHere isValue tailSpace rfl, by simp [split, valueSplit, joined], read⟩
  · by_cases comma : character = ','
    · subst comma
      rw [run_ended_of_comma start] at read
      obtain ⟨items, last, areItems, itemsSplit, read⟩ := exists_items_of_enter read
      exact ⟨_, last, .more leadHere isValue tailSpace areItems rfl,
        by simp [split, valueSplit, joined, itemsSplit], read⟩
    · rw [run_ended_of_ne start closing comma] at read
      cases read
termination_by 2 * text.length + 1
decreasing_by
  · rw [split]
    simp only [List.length_append]
    omega
  · rw [joined] at shorter
    simp only [List.length_append, List.length_cons] at shorter
    omega

end

/-! ## Every value is passed over -/

theorem run_value_append {space : Text} (isSpace : Space space) (brackets : List Bracket)
    (text : Text) : run ⟨.value, brackets, space ++ text⟩ = run ⟨.value, brackets, text⟩ := by
  rw [← run_value_skipSpace, isSpace.skipSpace_append, run_value_skipSpace]

/-- From the start of a value on, a skipping comes to its end. From the start of what stands in
brackets on, it comes behind the closing one. -/
def Passes : Nonterminal → Text → Prop
  | .value, source => ∀ (brackets : List Bracket) (rest : Text), EndsNumber rest →
      run ⟨.value, brackets, source ++ rest⟩ = run ⟨.ended, brackets, rest⟩
  | .items bracket, source => ∀ (brackets : List Bracket) (rest : Text),
      enter bracket brackets (source ++ bracket.closing :: rest) = run ⟨.ended, brackets, rest⟩

theorem enter_append {bracket : Bracket} {brackets : List Bracket} {lead value rest : Text}
    (isLead : IsLead bracket lead) (passes : Passes .value value) (ends : EndsNumber rest) :
    enter bracket brackets (lead ++ (value ++ rest)) =
      run ⟨.ended, bracket :: brackets, rest⟩ := by
  obtain ⟨space, isSpace, leadRead⟩ := isLead.exists_beforeValue_append
  calc
    enter bracket brackets (lead ++ (value ++ rest)) =
        run ⟨.value, bracket :: brackets, space ++ (value ++ rest)⟩ := by
      simp [enter, leadRead, bind, Except.bind]
    _ = run ⟨.value, bracket :: brackets, value ++ rest⟩ := run_value_append isSpace _ _
    _ = run ⟨.ended, bracket :: brackets, rest⟩ := passes _ rest ends

theorem passes_of_derives {nonterminal : Nonterminal} {source : Text}
    (derives : Derives nonterminal source) : Passes nonterminal source := by
  induction derives with
  | scalar isScalar =>
      intro brackets rest ends
      obtain ⟨first, later, rfl, inner⟩ := isScalar.exists_cons
      have scalarRead := isScalar.scalar_append ends
      rw [List.cons_append] at scalarRead
      rw [List.cons_append, run_value_of_scalar (skipSpace_cons inner.solid _) inner.notOpening,
        scalarRead]
      rfl
  | @empty bracket inner source space joined =>
      intro brackets rest _
      have closes : skipSpace (inner ++ bracket.closing :: rest) = bracket.closing :: rest :=
        space.skipSpace_append_cons (isSpace_closing bracket) rest
      simp only [joined, List.cons_append, List.append_assoc, List.nil_append]
      rw [run_value_of_opening (skipSpace_cons (isSpace_opening bracket) _),
        run_opened_of_closing closes]
  | @filled bracket inner source items joined passesItems =>
      intro brackets rest _
      obtain ⟨first, later, start, notClosing⟩ :=
        items.exists_skipSpace_eq_cons (bracket.closing :: rest)
      simp only [joined, List.cons_append, List.append_assoc, List.nil_append]
      rw [run_value_of_opening (skipSpace_cons (isSpace_opening bracket) _),
        run_opened_of_ne start notClosing, passesItems]
  | @last bracket lead value tail source isLead isValue space joined passesValue =>
      intro brackets rest
      simp only [joined, List.append_assoc]
      rw [enter_append isLead passesValue (space.endsNumber_append (endsNumber_closing bracket rest)),
        run_ended_of_closing (space.skipSpace_append_cons (isSpace_closing bracket) rest)]
  | @more bracket lead value tail later source isLead isValue space items joined passesValue
      passesLater =>
      intro brackets rest
      simp only [joined, List.append_assoc, List.cons_append]
      rw [enter_append isLead passesValue (space.endsNumber_append (endsNumber_comma _)),
        run_ended_of_comma (space.skipSpace_append_cons rfl _), passesLater]

end Skipping

/-! ## Skipping -/

theorem skip_sound {text rest : Text} (read : skip text = .ok rest) :
    ∃ lead value, Space lead ∧ IsValue value ∧ text = lead ++ (value ++ rest) := by
  obtain ⟨lead, value, after, space, isValue, joined, ended⟩ := Skipping.exists_value_of_run read
  rw [Skipping.run_done] at ended
  cases ended
  exact ⟨lead, value, space, isValue, joined⟩

theorem IsValue.skip_append {lead value rest : Text} (isValue : IsValue value)
    (space : Space lead) (ends : EndsNumber rest) : skip (lead ++ (value ++ rest)) = .ok rest := by
  rw [skip, Skipping.run_value_append space, Skipping.passes_of_derives isValue [] rest ends,
    Skipping.run_done]

end ScopedCss.Json
