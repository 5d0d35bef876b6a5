import Mathlib.Data.Nat.Find
import ScopedCss.Proofs.Rule.Pattern
import ScopedCss.Proofs.Text.Position

set_option autoImplicit false

/-!
# Where the rules of a text stand

The places of the rules of a text can be told by looking at positions alone, with no alternative ever
given up: a rule is divided at the last brace of the run of characters before the next `@` or closing
brace that has something between it and a closing brace (`Divides`), and a media header counts only
where a rule can be divided behind it (`IsMatch`).
-/

namespace ScopedCss.Rule

open Occurrence (at? next? IsHeader WellFormed Undivided mediaKeyword)
open Text (IsFirst)

/-! ## Positions -/

/-- The longest run from `start` on of characters that are neither `@` nor a closing brace goes up
to `stop`. -/
structure IsRun (text : Text) (start stop : Nat) : Prop where
  start_le : start ≤ stop
  stop_le : stop ≤ text.length
  free : ∀ position, start ≤ position → position < stop →
    text[position]? ≠ some '@' ∧ text[position]? ≠ some '\x7d'
  ends : ∀ character, text[stop]? = some character → character = '@' ∨ character = '\x7d'

/-- An opening brace with something other than a closing brace right behind it, and with a closing
brace after that. -/
structure CanDivide (text : Text) (brace : Nat) : Prop where
  opens : text[brace]? = some '\x7b'
  followed : ∃ character, text[brace + 1]? = some character ∧ character ≠ '\x7d'
  closed : ∃ later, brace + 1 < later ∧ text[later]? = some '\x7d'

/-- A rule without a media header from `start` on has its selectors before `brace`, which is the last
brace of the run that can divide it, and its declarations between `brace` and `close`. -/
structure Divides (text : Text) (start brace close : Nat) : Prop where
  start_lt : start < brace
  canDivide : CanDivide text brace
  last : ∃ stop, IsRun text start stop ∧ brace < stop ∧
    ∀ other, start < other → other < stop → CanDivide text other → other ≤ brace
  close : IsFirst text '\x7d' (brace + 1) close

/-- The media header from `start` on, with its opening brace at `brace`. -/
structure OpensMedia (text : Text) (start brace : Nat) : Prop where
  keyword : mediaKeyword <+: text.drop start
  condition : ∃ character, text[start + 6]? = some character ∧ character ≠ '\x7b'
  opens : IsFirst text '\x7b' (start + 7) brace

/-- The positions that bound a rule in a text: where it starts, the brace of its media header, the
brace in front of its declarations, and its closing brace. -/
structure Place where
  start : Nat
  mediaBrace : Option Nat
  brace : Nat
  close : Nat

namespace Place

variable (text : Text) (place : Place)

def media : Option Text := place.mediaBrace.map fun brace => text.extract place.start (brace + 1)

/-- The selectors start behind the media header, if there is one. -/
def selectorsStart : Nat := (place.mediaBrace.map (· + 1)).getD place.start

def selectors : Text := text.extract place.selectorsStart place.brace

def declarations : Text := text.extract (place.brace + 1) place.close

def occurrence : Occurrence := ⟨place.media text, place.selectors text, place.declarations text⟩

end Place

/-- A rule stands at the place. The one with a media header is taken where both can be read. -/
inductive IsMatch (text : Text) : Place → Prop where
  | headed {start mediaBrace brace close : Nat} :
      OpensMedia text start mediaBrace → Divides text (mediaBrace + 1) brace close →
      IsMatch text ⟨start, some mediaBrace, brace, close⟩
  | bare {start brace close : Nat} :
      (∀ mediaBrace other otherClose, OpensMedia text start mediaBrace →
        ¬ Divides text (mediaBrace + 1) other otherClose) →
      Divides text start brace close → IsMatch text ⟨start, none, brace, close⟩

/-- The first place from `start` on where a rule stands. -/
structure IsNext (text : Text) (start : Nat) (place : Place) : Prop where
  isMatch : IsMatch text place
  start_le : start ≤ place.start
  least : ∀ other, IsMatch text other → start ≤ other.start → place.start ≤ other.start

/-- The rules that follow each other from `start` on, each search starting behind the closing brace
of the rule before. -/
inductive Scans (text : Text) : Nat → List Rule → Prop where
  | done {start : Nat} :
      (∀ place, IsMatch text place → place.start < start) → Scans text start []
  | next {start : Nat} {place : Place} {rules : List Rule} :
      IsNext text start place → Scans text (place.close + 1) rules →
      Scans text start ((place.occurrence text).rule :: rules)

/-! ## Runs and dividing braces -/

variable {text : Text} {start brace close : Nat}

theorem exists_isRun (inside : start ≤ text.length) : ∃ stop, IsRun text start stop := by
  have found : ∃ stop, start ≤ stop ∧
      (stop = text.length ∨ text[stop]? = some '@' ∨ text[stop]? = some '\x7d') :=
    ⟨text.length, inside, .inl rfl⟩
  obtain ⟨startLe, ending⟩ := Nat.find_spec found
  refine ⟨Nat.find found, startLe, Nat.find_min' found ⟨inside, .inl rfl⟩, ?_, ?_⟩
  · intro position positionLe before
    have earlier := Nat.find_min found before
    simp only [not_and, not_or] at earlier
    exact (earlier positionLe).2
  · intro character stands
    rcases ending with atEnd | atSign | closing
    · rw [atEnd, List.getElem?_length] at stands
      cases stands
    · exact .inl (Option.some.inj (stands.symm.trans atSign))
    · exact .inr (Option.some.inj (stands.symm.trans closing))

theorem IsRun.le_stop {stop position : Nat} {before after : Text} (run : IsRun text start stop)
    (split : text.drop position = before ++ after) (positionLe : position ≤ stop)
    (atAbsent : '@' ∉ before) (closeAbsent : '\x7d' ∉ before) :
    position + before.length ≤ stop := by
  by_contra lt
  have length := congrArg List.length split
  rw [List.length_drop, List.length_append] at length
  have inside : stop < text.length := by omega
  have stands : text[stop]? = some text[stop] := List.getElem?_eq_getElem inside
  have member := Text.mem_of_drop_eq split positionLe (by omega) stands
  rcases run.ends _ stands with atSign | closing
  · exact atAbsent (atSign ▸ member)
  · exact closeAbsent (closing ▸ member)

theorem canDivide_of_drop_eq {declarations rest : Text}
    (split : text.drop brace = '\x7b' :: (declarations ++ '\x7d' :: rest))
    (nonempty : declarations ≠ []) (closeAbsent : '\x7d' ∉ declarations) :
    CanDivide text brace := by
  have behind : text.drop brace = ['\x7b'] ++ (declarations ++ '\x7d' :: rest) := split
  have upToClose : text.drop brace = ('\x7b' :: declarations) ++ '\x7d' :: rest := split
  refine ⟨?_, ?_, brace + ('\x7b' :: declarations).length, ?_, ?_⟩
  · exact Text.getElem?_of_drop_eq_cons split
  · obtain ⟨next, later, rfl⟩ := List.exists_cons_of_ne_nil nonempty
    refine ⟨next, by simpa using Text.getElem?_of_drop_eq behind 0, ?_⟩
    intro same
    subst same
    exact closeAbsent List.mem_cons_self
  · have positive := List.length_pos_iff.mpr nonempty
    rw [List.length_cons]
    omega
  · simpa using Text.getElem?_of_drop_eq upToClose 0

theorem CanDivide.drop_eq (canDivide : CanDivide text brace)
    (first : IsFirst text '\x7d' (brace + 1) close) :
    text.drop brace =
      '\x7b' :: (text.extract (brace + 1) close ++ '\x7d' :: text.drop (close + 1)) := by
  rw [Text.drop_eq_cons canDivide.opens, first.drop_eq]

theorem CanDivide.extract_ne_nil (canDivide : CanDivide text brace)
    (first : IsFirst text '\x7d' (brace + 1) close) : text.extract (brace + 1) close ≠ [] := by
  obtain ⟨character, stands, notClose⟩ := canDivide.followed
  have closeNe : close ≠ brace + 1 := by
    intro same
    subst same
    exact notClose (Option.some.inj (stands.symm.trans first.stands))
  have startLe := first.start_le
  exact List.ne_nil_of_mem (Text.mem_extract_iff.mpr ⟨brace + 1, by omega, by omega, stands⟩)

theorem Divides.drop_eq (divides : Divides text start brace close) :
    text.drop start = text.extract start brace ++
      '\x7b' :: (text.extract (brace + 1) close ++ '\x7d' :: text.drop (close + 1)) := by
  rw [Text.drop_eq_extract_append (Nat.le_of_lt divides.start_lt),
    divides.canDivide.drop_eq divides.close]

theorem IsRun.not_mem_extract {stop : Nat} (run : IsRun text start stop) (braceLt : brace < stop) :
    '@' ∉ text.extract start brace ∧ '\x7d' ∉ text.extract start brace := by
  rw [Text.mem_extract_iff, Text.mem_extract_iff]
  constructor
  · intro member
    obtain ⟨position, startLe, lt, stands⟩ := member
    exact (run.free position startLe (by omega)).1 stands
  · intro member
    obtain ⟨position, startLe, lt, stands⟩ := member
    exact (run.free position startLe (by omega)).2 stands

theorem Divides.undivided (divides : Divides text start brace close) :
    Undivided (text.extract (brace + 1) close) := by
  intro before after split nonempty
  obtain ⟨stop, run, braceLt, last⟩ := divides.last
  have startLt := divides.start_lt
  have closeAbsent := divides.close.not_mem_extract
  rw [split, List.mem_append, not_or, List.mem_cons, not_or] at closeAbsent
  have later : text.drop brace = ('\x7b' :: before) ++
      '\x7b' :: (after ++ '\x7d' :: text.drop (close + 1)) := by
    simpa [split] using divides.canDivide.drop_eq divides.close
  -- Without an `@` before it the later brace would be in the run, behind the last one.
  by_contra atAbsent
  have atLater : text.drop (brace + ('\x7b' :: before).length) =
      '\x7b' :: (after ++ '\x7d' :: text.drop (close + 1)) := by
    rw [← List.drop_drop, later, List.drop_left]
  have laterDivides := canDivide_of_drop_eq atLater nonempty closeAbsent.2.2
  have upToLater : text.drop brace = ('\x7b' :: before ++ ['\x7b']) ++
      (after ++ '\x7d' :: text.drop (close + 1)) := by simpa using later
  have inRun := run.le_stop upToLater (Nat.le_of_lt braceLt) (by simp [atAbsent])
    (by simp [closeAbsent.1])
  simp only [List.length_append, List.length_cons, List.length_nil] at inRun laterDivides
  have atMost := last _ (by omega) (by omega) laterDivides
  omega

theorem Divides.wellFormed (divides : Divides text start brace close) :
    WellFormed ⟨none, text.extract start brace, text.extract (brace + 1) close⟩ := by
  obtain ⟨stop, run, braceLt, _⟩ := divides.last
  have startLt := divides.start_lt
  have length : (text.extract start brace).length = brace - start :=
    Text.length_extract (by have stopLe := run.stop_le; omega)
  have selectorsNonempty : text.extract start brace ≠ [] := List.ne_nil_of_length_pos (by omega)
  exact {
    header := by simp
    selectors_ne_nil := selectorsNonempty
    at_not_mem_selectors := (run.not_mem_extract braceLt).1
    close_not_mem_selectors := (run.not_mem_extract braceLt).2
    declarations_ne_nil := divides.canDivide.extract_ne_nil divides.close
    close_not_mem_declarations := divides.close.not_mem_extract
    undivided := divides.undivided }

theorem IsRun.le_of_undivided {stop other : Nat} (run : IsRun text start stop)
    (startLe : start ≤ brace) (first : IsFirst text '\x7d' (brace + 1) close)
    (undivided : Undivided (text.extract (brace + 1) close)) (otherLt : other < stop)
    (otherDivides : CanDivide text other) : other ≤ brace := by
  by_contra braceLt
  have stopLe : stop ≤ close := by
    by_contra closeLt
    have bound := first.start_le
    exact (run.free close (by omega) (by omega)).2 first.stands
  have otherFirst : IsFirst text '\x7d' (other + 1) close :=
    ⟨by omega, first.stands, fun earlier otherLe => first.least earlier (by omega)⟩
  have split : text.extract (brace + 1) close =
      text.extract (brace + 1) other ++ '\x7b' :: text.extract (other + 1) close :=
    Text.extract_eq_append_cons (by omega) (by omega) otherDivides.opens
  -- The `@` that has to stand before the other brace would end the run.
  have atMember := undivided _ _ split (otherDivides.extract_ne_nil otherFirst)
  obtain ⟨position, braceLe, lt, stands⟩ := Text.mem_extract_iff.mp atMember
  exact (run.free position (by omega) (by omega)).1 stands

theorem divides_of_wellFormed {selectors declarations rest : Text}
    (wellFormed : WellFormed ⟨none, selectors, declarations⟩)
    (split : text.drop start = selectors ++ '\x7b' :: (declarations ++ '\x7d' :: rest)) :
    Divides text start (start + selectors.length)
      (start + selectors.length + 1 + declarations.length) := by
  have positive : 0 < selectors.length := List.length_pos_iff.mpr wellFormed.selectors_ne_nil
  have inside : start ≤ text.length := by
    have length := congrArg List.length split
    simp only [List.length_drop, List.length_append, List.length_cons] at length
    omega
  have atBrace : text.drop (start + selectors.length) =
      '\x7b' :: (declarations ++ '\x7d' :: rest) := by
    rw [← List.drop_drop, split, List.drop_left]
  have behind : text.drop (start + selectors.length + 1) = declarations ++ '\x7d' :: rest := by
    rw [← List.drop_drop, atBrace, List.drop_one, List.tail_cons]
  have extracted : text.extract (start + selectors.length + 1)
      (start + selectors.length + 1 + declarations.length) = declarations :=
    @Text.extract_of_drop_eq text [] _ _ _ behind
  have first := Text.isFirst_of_drop_eq behind wellFormed.close_not_mem_declarations
  have canDivide := canDivide_of_drop_eq atBrace wellFormed.declarations_ne_nil
    wellFormed.close_not_mem_declarations
  obtain ⟨stop, run⟩ := exists_isRun inside
  have upToBrace : text.drop start = (selectors ++ ['\x7b']) ++ (declarations ++ '\x7d' :: rest) := by
    simpa using split
  have inRun := run.le_stop upToBrace run.start_le (by simp [wellFormed.at_not_mem_selectors])
    (by simp [wellFormed.close_not_mem_selectors])
  rw [List.length_append, List.length_singleton] at inRun
  refine ⟨by omega, canDivide, ⟨stop, run, by omega, ?_⟩, first⟩
  intro other _ otherLt otherDivides
  have undivided := wellFormed.undivided
  rw [← extracted] at undivided
  exact run.le_of_undivided (by omega) first undivided otherLt otherDivides

/-! ## Media headers -/

theorem OpensMedia.drop_eq {mediaBrace : Nat} (opens : OpensMedia text start mediaBrace) :
    text.drop start = mediaKeyword ++ (text.extract (start + 6) mediaBrace ++
      '\x7b' :: text.drop (mediaBrace + 1)) := by
  obtain ⟨rest, split⟩ := opens.keyword
  have dropped : text.drop (start + 6) = rest := by
    rw [← List.drop_drop, ← split]
    rfl
  have startLe := opens.opens.start_le
  rw [← split, ← dropped, Text.drop_eq_extract_append (show start + 6 ≤ mediaBrace by omega),
    Text.drop_eq_cons opens.opens.stands]

theorem OpensMedia.isHeader {mediaBrace : Nat} (opens : OpensMedia text start mediaBrace) :
    IsHeader (text.extract start (mediaBrace + 1)) := by
  have startLe := opens.opens.start_le
  obtain ⟨character, stands, notBrace⟩ := opens.condition
  refine ⟨text.extract (start + 6) mediaBrace, ?_, ?_, ?_⟩
  · exact List.ne_nil_of_mem (Text.mem_extract_iff.mpr ⟨start + 6, by omega, by omega, stands⟩)
  · rw [Text.mem_extract_iff]
    intro member
    obtain ⟨position, positionLe, lt, standsBrace⟩ := member
    by_cases same : position = start + 6
    · subst same
      exact notBrace (Option.some.inj (stands.symm.trans standsBrace))
    · exact opens.opens.least position (by omega) lt standsBrace
  · have ends : start ≤ mediaBrace + 1 := by omega
    have joined : text.extract start (mediaBrace + 1) ++ text.drop (mediaBrace + 1) =
        mediaKeyword ++ text.extract (start + 6) mediaBrace ++ ['\x7b'] ++
          text.drop (mediaBrace + 1) := by
      rw [← Text.drop_eq_extract_append ends, opens.drop_eq]
      simp
    exact List.append_cancel_right joined

theorem exists_opensMedia {header rest : Text} (isHeader : IsHeader header)
    (split : text.drop start = header ++ rest) :
    ∃ mediaBrace, OpensMedia text start mediaBrace ∧ text.drop (mediaBrace + 1) = rest := by
  obtain ⟨condition, nonempty, absent, rfl⟩ := isHeader
  obtain ⟨first, later, rfl⟩ := List.exists_cons_of_ne_nil nonempty
  rw [List.mem_cons, not_or] at absent
  have atCondition : text.drop start = mediaKeyword ++ first :: (later ++ '\x7b' :: rest) := by
    simpa using split
  have behind : text.drop (start + 7) = later ++ '\x7b' :: rest := by
    rw [← List.drop_drop, atCondition]
    rfl
  refine ⟨start + 7 + later.length, ⟨⟨_, atCondition.symm⟩, ⟨first, ?_, Ne.symm absent.1⟩,
    Text.isFirst_of_drop_eq behind absent.2⟩, ?_⟩
  · exact Text.getElem?_of_drop_eq atCondition 0
  · rw [← List.drop_drop, ← List.drop_drop, behind, List.drop_left]
    rfl

/-! ## Matches -/

theorem not_opensMedia_of_divides {mediaBrace : Nat} (divides : Divides text start brace close) :
    ¬ OpensMedia text start mediaBrace := by
  intro opens
  have atSign : text[start]? = some '@' :=
    Text.getElem?_of_drop_eq_cons opens.drop_eq
  have member := Text.mem_extract_iff.mpr ⟨start, Nat.le_refl start, divides.start_lt, atSign⟩
  exact divides.wellFormed.at_not_mem_selectors member

theorem IsMatch.at?_eq_some {place : Place} (isMatch : IsMatch text place) :
    at? (text.drop place.start) =
      some (place.occurrence text, text.drop (place.close + 1)) := by
  rw [Occurrence.at?_eq_some_iff]
  cases isMatch with
  | @headed start mediaBrace brace close opens divides =>
      constructor
      · exact { divides.wellFormed with
          header := fun header same => Option.some.inj same ▸ opens.isHeader }
      · have startLe := opens.opens.start_le
        rw [Text.drop_eq_extract_append (show start ≤ mediaBrace + 1 by omega), divides.drop_eq]
        simp [Occurrence.text, Place.occurrence, Place.media, Place.selectors,
          Place.selectorsStart, Place.declarations]
  | bare _ divides =>
      constructor
      · exact divides.wellFormed
      · rw [divides.drop_eq]
        simp [Occurrence.text, Place.occurrence, Place.media, Place.selectors,
          Place.selectorsStart, Place.declarations]

theorem exists_isMatch {occurrence : Occurrence} {rest : Text}
    (read : at? (text.drop start) = some (occurrence, rest)) :
    ∃ place, place.start = start ∧ IsMatch text place := by
  obtain ⟨wellFormed, split⟩ := Occurrence.at?_eq_some_iff.mp read
  obtain ⟨media, selectors, declarations⟩ := occurrence
  cases media with
  | none =>
      have parts : text.drop start = selectors ++ '\x7b' :: (declarations ++ '\x7d' :: rest) := by
        simpa [Occurrence.text] using split
      have divides := divides_of_wellFormed wellFormed parts
      have notHeaded : ∀ mediaBrace other otherClose, OpensMedia text start mediaBrace →
          ¬ Divides text (mediaBrace + 1) other otherClose := fun mediaBrace _ _ opens =>
        absurd opens (not_opensMedia_of_divides divides)
      exact ⟨_, rfl, .bare notHeaded divides⟩
  | some header =>
      obtain ⟨mediaBrace, opens, behind⟩ := exists_opensMedia (wellFormed.header header rfl)
        (by simpa [Occurrence.text] using split)
      have bareWellFormed : WellFormed ⟨none, selectors, declarations⟩ :=
        { wellFormed with header := by simp }
      exact ⟨_, rfl, .headed opens (divides_of_wellFormed bareWellFormed behind)⟩

/-! ## Searches -/

theorem at?_drop_eq_none (search : next? text = none) (position : Nat) :
    at? (text.drop position) = none := by
  induction text generalizing position with
  | nil =>
      rw [List.drop_nil]
      rfl
  | cons character text ih =>
      cases here : at? (character :: text) with
      | some read => simp [next?, here] at search
      | none =>
          rw [Occurrence.next?_cons_of_at?_eq_none here, Option.map_eq_none_iff] at search
          cases position with
          | zero => exact here
          | succ position => exact ih search position

theorem exists_position {found : Occurrence.Found} (search : next? text = some found) :
    ∃ position, found.gap = text.take position ∧
      at? (text.drop position) = some (found.occurrence, found.rest) ∧
      ∀ earlier < position, at? (text.drop earlier) = none := by
  induction text generalizing found with
  | nil => simp [next?] at search
  | cons character text ih =>
      cases here : at? (character :: text) with
      | some read =>
          simp only [next?, here, Option.some.injEq] at search
          subst search
          exact ⟨0, rfl, here, by simp⟩
      | none =>
          rw [Occurrence.next?_cons_of_at?_eq_none here, Option.map_eq_some_iff] at search
          obtain ⟨later, searched, rfl⟩ := search
          obtain ⟨position, gap, read, nothing⟩ := ih searched
          refine ⟨position + 1, by simp [gap], read, ?_⟩
          intro earlier lt
          cases earlier with
          | zero => exact here
          | succ earlier => exact nothing earlier (by omega)

theorem next?_drop_eq_none_iff :
    next? (text.drop start) = none ↔ ∀ place, IsMatch text place → place.start < start := by
  constructor
  · intro search place isMatch
    by_contra startLe
    have nothing := at?_drop_eq_none search (place.start - start)
    rw [List.drop_drop, Nat.add_sub_cancel' (by omega), isMatch.at?_eq_some] at nothing
    cases nothing
  · intro before
    rw [Option.eq_none_iff_forall_ne_some]
    intro found search
    obtain ⟨position, _, read, _⟩ := exists_position search
    rw [List.drop_drop] at read
    obtain ⟨place, placeStart, isMatch⟩ := exists_isMatch read
    have lt := before place isMatch
    omega

/-- What a search from `start` on finds when the rule that it finds stands at `place`. -/
def Place.found (text : Text) (start : Nat) (place : Place) : Occurrence.Found :=
  ⟨text.extract start place.start, place.occurrence text, text.drop (place.close + 1)⟩

theorem exists_isNext {found : Occurrence.Found} (search : next? (text.drop start) = some found) :
    ∃ place, IsNext text start place ∧ found = place.found text start := by
  obtain ⟨position, gap, read, nothing⟩ := exists_position search
  rw [List.drop_drop] at read
  obtain ⟨place, placeStart, isMatch⟩ := exists_isMatch read
  have same := isMatch.at?_eq_some
  rw [placeStart, read, Option.some.injEq, Prod.mk.injEq] at same
  refine ⟨place, ⟨isMatch, by omega, ?_⟩, ?_⟩
  · intro other otherMatch startLe
    by_contra otherLt
    have otherRead := nothing (other.start - start) (by omega)
    rw [List.drop_drop, Nat.add_sub_cancel' startLe, otherMatch.at?_eq_some] at otherRead
    cases otherRead
  · rw [Place.found, placeStart, List.extract_eq_take_drop, Nat.add_sub_cancel_left, ← gap,
      ← same.1, ← same.2]

theorem IsNext.found_eq {place other : Place} (isNext : IsNext text start place)
    (otherNext : IsNext text start other) : place.found text start = other.found text start := by
  have sameStart : place.start = other.start :=
    Nat.le_antisymm (isNext.least other otherNext.isMatch otherNext.start_le)
      (otherNext.least place isNext.isMatch isNext.start_le)
  have same := isNext.isMatch.at?_eq_some
  rw [sameStart, otherNext.isMatch.at?_eq_some, Option.some.injEq, Prod.mk.injEq] at same
  rw [Place.found, Place.found, sameStart, same.1, same.2]

theorem next?_drop_eq_some_iff {found : Occurrence.Found} :
    next? (text.drop start) = some found ↔
      ∃ place, IsNext text start place ∧ found = place.found text start := by
  constructor
  · exact exists_isNext
  · intro placed
    obtain ⟨place, isNext, rfl⟩ := placed
    cases search : next? (text.drop start) with
    | none =>
        have before := next?_drop_eq_none_iff.mp search place isNext.isMatch
        have startLe := isNext.start_le
        omega
    | some found =>
        obtain ⟨other, otherNext, rfl⟩ := exists_isNext search
        rw [isNext.found_eq otherNext]

theorem scans_allIn (text : Text) (start : Nat) : Scans text start (allIn (text.drop start)) := by
  induction suffix : text.drop start using Segmentation.of.induct generalizing start with
  | case1 rest search =>
      subst suffix
      rw [allIn_of_next?_eq_none search]
      exact .done (next?_drop_eq_none_iff.mp search)
  | case2 rest found search ih =>
      subst suffix
      obtain ⟨place, isNext, rfl⟩ := exists_isNext search
      rw [allIn_of_next?_eq_some search]
      exact .next isNext (ih _ rfl)

theorem Scans.eq_allIn {rules : List Rule} (scans : Scans text start rules) :
    rules = allIn (text.drop start) := by
  induction scans with
  | done before => rw [allIn_of_next?_eq_none (next?_drop_eq_none_iff.mpr before)]
  | next isNext _ ih =>
      rw [allIn_of_next?_eq_some (next?_drop_eq_some_iff.mpr ⟨_, isNext, rfl⟩), ih]
      rfl

/-- The pattern of a rule, with all its alternatives, is found where the positions tell, and nowhere
else: a search from any start finds the first place where a rule stands, with its three parts, and
the next search goes on behind its closing brace. -/
theorem search_pattern_by_position (text : Text) :
    (∀ start gap reading, pattern.search? (text.drop start) = some (gap, reading) ↔
      ∃ place, IsNext text start place ∧ gap = text.extract start place.start ∧
        reading = (place.occurrence text).reading (text.drop (place.close + 1))) ∧
    (∀ start, pattern.search? (text.drop start) = none ↔
      ∀ place, IsMatch text place → place.start < start) ∧
    (∀ rules, Scans text 0 rules ↔ rules = matchAll text) ∧
    allIn text = matchAll text := by
  refine ⟨?_, ?_, ?_, (matchAll_eq_allIn text).symm⟩
  · intro start gap reading
    rw [search?_pattern, Option.map_eq_some_iff]
    constructor
    · intro searched
      obtain ⟨found, search, same⟩ := searched
      obtain ⟨place, isNext, rfl⟩ := next?_drop_eq_some_iff.mp search
      cases same
      exact ⟨place, isNext, rfl, rfl⟩
    · intro placed
      obtain ⟨place, isNext, rfl, rfl⟩ := placed
      exact ⟨_, next?_drop_eq_some_iff.mpr ⟨place, isNext, rfl⟩, rfl⟩
  · intro start
    rw [search?_pattern, Option.map_eq_none_iff, next?_drop_eq_none_iff]
  · intro rules
    rw [matchAll_eq_allIn]
    constructor
    · exact Scans.eq_allIn
    · intro same
      subst same
      exact scans_allIn text 0

end ScopedCss.Rule
