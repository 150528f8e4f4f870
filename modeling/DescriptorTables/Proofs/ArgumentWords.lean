import DescriptorTables.Options

namespace DescriptorTables

namespace Blank

def Solid (chars : List Char) : Prop :=
  ∀ c ∈ chars, isBlank c = false

/-- A run of characters that are not blank, and none such beside it, at its place among others. -/
structure RunAt (chars : List Char) (start : Nat) (run : List Char) : Prop where
  ne_nil : run ≠ []
  solid : Solid run
  apart : ∃ before after, chars = before ++ run ++ after ∧ before.length = start ∧
    before.getLast?.all isBlank ∧ after.head?.all isBlank

/-- A word of a text, at the number of characters before it. -/
def WordAt (text : String) (start : Nat) (word : String) : Prop :=
  RunAt text.toList start word.toList

theorem Solid.not_mem {chars : List Char} (h : Solid chars) (c : Char) (hc : isBlank c) :
    c ∉ chars := by
  intro hm
  rw [h c hm] at hc
  cases hc

theorem RunAt.append_cons {chars run : List Char} {start : Nat} (h : RunAt chars start run)
    (sep : Char) (hsep : isBlank sep) (rest : List Char) :
    RunAt (chars ++ sep :: rest) start run := by
  obtain ⟨hne, hsolid, before, after, rfl, hstart, hbefore, hafter⟩ := h
  refine ⟨hne, hsolid, before, after ++ sep :: rest, List.append_assoc _ _ _, hstart, hbefore, ?_⟩
  cases after with
  | nil => exact hsep
  | cons c after => exact hafter

theorem RunAt.cons_append {chars run : List Char} {start : Nat} (h : RunAt chars start run)
    (sep : Char) (hsep : isBlank sep) (first : List Char) :
    RunAt (first ++ sep :: chars) (first.length + 1 + start) run := by
  obtain ⟨hne, hsolid, before, after, rfl, rfl, hbefore, hafter⟩ := h
  refine ⟨hne, hsolid, first ++ sep :: before, after, by simp, ?_, ?_, hafter⟩
  · rw [List.length_append, List.length_cons]
    omega
  · rw [List.getLast?_append, List.getLast?_cons]
    cases hlast : before.getLast? with
    | none => exact hsep
    | some c =>
      rw [hlast] at hbefore
      exact hbefore

theorem Solid.exists_gap {run : List Char} (h : Solid run) (sep : Char) (hsep : isBlank sep)
    (before first rest : List Char) (hchars : before ++ run = first ++ sep :: rest) :
    ∃ gap, before = first ++ sep :: gap ∧ rest = gap ++ run := by
  have hnot := h.not_mem sep hsep
  obtain ⟨middle, -, hrun⟩ | ⟨middle, hbefore, hrest⟩ := List.append_eq_append_iff.mp hchars
  · exact absurd (hrun ▸ List.mem_append_right middle List.mem_cons_self) hnot
  · cases middle with
    | nil =>
      rw [List.nil_append] at hrest
      exact absurd (hrest ▸ List.mem_cons_self) hnot
    | cons c gap =>
      obtain ⟨rfl, rfl⟩ := List.cons.inj hrest
      exact ⟨gap, hbefore, rfl⟩

theorem runAt_append_cons_iff (first rest run : List Char) (sep : Char) (hsep : isBlank sep)
    (start : Nat) :
    RunAt (first ++ sep :: rest) start run ↔
      RunAt first start run ∨ ∃ k, start = first.length + 1 + k ∧ RunAt rest k run := by
  constructor
  · rintro ⟨hne, hsolid, before, after, hchars, rfl, hbefore, hafter⟩
    obtain ⟨middle, hleft, hright⟩ | ⟨middle, hfirst, rfl⟩ := List.append_eq_append_iff.mp hchars
    · cases middle with
      | nil =>
        rw [List.append_nil] at hleft
        exact .inl ⟨hne, hsolid, before, [], by rw [hleft, List.append_nil], rfl, hbefore, rfl⟩
      | cons c middle =>
        obtain ⟨rfl, rfl⟩ := List.cons.inj hright
        obtain ⟨gap, rfl, rfl⟩ := hsolid.exists_gap sep hsep before first middle hleft
        refine .inr ⟨gap.length, ?_, hne, hsolid, gap, after, rfl, rfl, ?_, hafter⟩
        · rw [List.length_append, List.length_cons]
          omega
        · rw [List.getLast?_append, List.getLast?_cons] at hbefore
          cases hlast : gap.getLast? with
          | none => rfl
          | some c =>
            rw [hlast] at hbefore
            exact hbefore
    · refine .inl ⟨hne, hsolid, before, middle, hfirst, rfl, hbefore, ?_⟩
      cases middle with
      | nil => rfl
      | cons c middle => exact hafter
  · rintro (h | ⟨k, rfl, h⟩)
    · exact h.append_cons sep hsep rest
    · exact h.cons_append sep hsep first

theorem runAt_of_solid (chars : List Char) (h : Solid chars) (start : Nat) (run : List Char) :
    RunAt chars start run ↔ start = 0 ∧ run = chars ∧ chars ≠ [] := by
  constructor
  · rintro ⟨hne, hsolid, before, after, rfl, rfl, hbefore, hafter⟩
    have hfirst : before = [] := by
      cases hlast : before.getLast? with
      | none => exact List.getLast?_eq_none_iff.mp hlast
      | some c =>
        rw [hlast] at hbefore
        have hm : c ∈ before := List.mem_of_getLast? hlast
        exact absurd (List.mem_append_left _ (List.mem_append_left _ hm)) (h.not_mem c hbefore)
    have hend : after = [] := by
      cases hhead : after.head? with
      | none => exact List.head?_eq_none_iff.mp hhead
      | some c =>
        rw [hhead] at hafter
        have hm : c ∈ after := List.mem_of_head? hhead
        exact absurd (List.mem_append_right _ hm) (h.not_mem c hafter)
    subst hfirst hend
    rw [List.nil_append, List.append_nil]
    exact ⟨rfl, rfl, hne⟩
  · rintro ⟨rfl, rfl, hne⟩
    exact ⟨hne, h, [], [], by rw [List.nil_append, List.append_nil], rfl, rfl, rfl⟩

/-- Characters are taken apart at their first blank. -/
theorem induction_on_breaks {motive : List Char → Prop}
    (solid : ∀ chars, Solid chars → motive chars)
    (blank : ∀ first sep rest, Solid first → isBlank sep → motive rest →
      motive (first ++ sep :: rest)) (chars : List Char) : motive chars := by
  have hmotive : ∀ chars first, Solid first → motive (first ++ chars) := by
    intro chars
    induction chars with
    | nil =>
      intro first hfirst
      rw [List.append_nil]
      exact solid first hfirst
    | cons c chars ih =>
      intro first hfirst
      cases hc : isBlank c with
      | true => exact blank first c chars hfirst hc (ih [] (List.forall_mem_nil _))
      | false =>
        have hnext := ih (first ++ [c])
          (List.forall_mem_append.mpr ⟨hfirst, List.forall_mem_singleton.mpr hc⟩)
        rw [List.append_assoc] at hnext
        exact hnext
  exact hmotive chars [] (List.forall_mem_nil _)

/-- Pieces with their places among the characters, one blank after each. -/
def placed (start : Nat) : List (List Char) → List (Nat × List Char)
  | [] => []
  | piece :: rest => (start, piece) :: placed (start + piece.length + 1) rest

theorem map_snd_placed (start : Nat) (pieces : List (List Char)) :
    (placed start pieces).map Prod.snd = pieces := by
  induction pieces generalizing start with
  | nil => rfl
  | cons piece rest ih => exact congrArg (piece :: ·) (ih _)

theorem le_of_mem_placed (start : Nat) (pieces : List (List Char)) :
    ∀ p ∈ placed start pieces, start ≤ p.1 := by
  induction pieces generalizing start with
  | nil => exact List.forall_mem_nil _
  | cons piece rest ih =>
    refine List.forall_mem_cons.mpr ⟨Nat.le_refl start, fun p hp => ?_⟩
    have hlater := ih _ p hp
    omega

theorem pairwise_placed (start : Nat) (pieces : List (List Char)) :
    (placed start pieces).Pairwise fun p q => p.1 < q.1 := by
  induction pieces generalizing start with
  | nil => exact List.Pairwise.nil
  | cons piece rest ih =>
    refine List.Pairwise.cons (fun p hp => ?_) (ih _)
    have hlater := le_of_mem_placed _ rest p hp
    change start < p.1
    omega

theorem mem_placed_iff (chars run : List Char) (start k : Nat) :
    (start, run) ∈ placed k (chars.splitOnP isBlank) ∧ run ≠ [] ↔
      ∃ j, start = k + j ∧ RunAt chars j run := by
  induction chars using induction_on_breaks generalizing k with
  | solid chars h =>
    rw [List.splitOnP_eq_singleton h, placed, placed, List.mem_singleton, Prod.mk.injEq]
    simp only [runAt_of_solid chars h]
    constructor
    · rintro ⟨⟨rfl, rfl⟩, hne⟩
      exact ⟨0, rfl, rfl, rfl, hne⟩
    · rintro ⟨j, rfl, rfl, rfl, hne⟩
      exact ⟨⟨rfl, rfl⟩, hne⟩
  | blank first sep rest hfirst hsep ih =>
    rw [List.splitOnP_append_cons_of_forall_mem hfirst sep hsep, placed, List.mem_cons,
      Prod.mk.injEq, or_and_right, ih]
    simp only [runAt_append_cons_iff first rest run sep hsep, runAt_of_solid first hfirst]
    constructor
    · rintro (⟨⟨rfl, rfl⟩, hne⟩ | ⟨j, rfl, hrun⟩)
      · exact ⟨0, rfl, .inl ⟨rfl, rfl, hne⟩⟩
      · exact ⟨first.length + 1 + j, by omega, .inr ⟨j, rfl, hrun⟩⟩
    · rintro ⟨j, rfl, ⟨rfl, rfl, hne⟩ | ⟨i, rfl, hrun⟩⟩
      · exact .inl ⟨⟨rfl, rfl⟩, hne⟩
      · exact .inr ⟨i, by omega, hrun⟩

def wordsAt (text : String) : List (Nat × String) :=
  ((placed 0 (text.toList.splitOnP isBlank)).filter fun p => !p.2.isEmpty).map
    fun p => (p.1, String.ofList p.2)

theorem words_eq_map_wordsAt (text : String) : words text = (wordsAt text).map Prod.snd := by
  have hpieces := map_snd_placed 0 (text.toList.splitOnP isBlank)
  calc words text
      = (((placed 0 (text.toList.splitOnP isBlank)).map Prod.snd).filter
          fun run => !run.isEmpty).map String.ofList := by rw [hpieces, words]
    _ = (wordsAt text).map Prod.snd := by
        rw [List.filter_map, List.map_map, wordsAt, List.map_map]
        rfl

theorem pairwise_wordsAt (text : String) : (wordsAt text).Pairwise fun p q => p.1 < q.1 := by
  apply List.pairwise_map.mpr
  exact (pairwise_placed 0 _).filter _

theorem mem_wordsAt_iff (text word : String) (start : Nat) :
    (start, word) ∈ wordsAt text ↔ WordAt text start word := by
  have hruns := mem_placed_iff text.toList word.toList start 0
  simp only [Nat.zero_add, exists_eq_left'] at hruns
  rw [WordAt, ← hruns, wordsAt, List.mem_map]
  constructor
  · rintro ⟨⟨place, piece⟩, hp, hpair⟩
    obtain ⟨rfl, rfl⟩ := Prod.mk.inj hpair
    obtain ⟨hm, hne⟩ := List.mem_filter.mp hp
    rw [String.toList_ofList]
    exact ⟨hm, by simpa using hne⟩
  · rintro ⟨hm, hne⟩
    refine ⟨(start, word.toList), List.mem_filter.mpr ⟨hm, by simpa using hne⟩, ?_⟩
    rw [String.ofList_toList]

theorem mem_words_iff (text word : String) :
    word ∈ words text ↔ ∃ start, WordAt text start word := by
  rw [words_eq_map_wordsAt, List.mem_map]
  constructor
  · rintro ⟨⟨start, found⟩, hm, rfl⟩
    exact ⟨start, (mem_wordsAt_iff text found start).mp hm⟩
  · rintro ⟨start, h⟩
    exact ⟨(start, word), (mem_wordsAt_iff _ _ _).mpr h, rfl⟩

end Blank

namespace Argument

def Known (word : String) : Prop :=
  word = "--skip-unused" ∨ word = "--raw"

instance (word : String) : Decidable (Known word) :=
  inferInstanceAs (Decidable (_ ∨ _))

theorem ofWord_eq_skipUnused_iff (word : String) :
    ofWord word = .skipUnused ↔ word = "--skip-unused" := by
  rw [ofWord]
  split
  · simpa
  · split <;> simpa

theorem ofWord_eq_raw_iff (word : String) : ofWord word = .raw ↔ word = "--raw" := by
  rw [ofWord]
  split
  · rename_i h
    subst h
    decide
  · split <;> simpa

theorem message?_ofWord (word : String) :
    (ofWord word).message? =
      if Known word then none
      else some ⟨.warn, "Unknown dump argument: " ++ Quoted.encode word⟩ := by
  rw [ofWord]
  by_cases hskip : word = "--skip-unused"
  · simp [hskip, Known, message?]
  · by_cases hraw : word = "--raw"
    · simp [hraw, Known, message?]
    · simp [hskip, hraw, Known, message?]

theorem filterMap_message?_map (words : List String) :
    (words.map ofWord).filterMap message? = (words.filter fun word => ¬ Known word).map
      fun word => ⟨.warn, "Unknown dump argument: " ++ Quoted.encode word⟩ := by
  induction words with
  | nil => rfl
  | cons word rest ih =>
    have hword := message?_ofWord word
    by_cases h : Known word
    · rw [if_pos h] at hword
      rw [List.map_cons, List.filterMap_cons_none hword, List.filter_cons_of_neg (by simpa using h),
        ih]
    · rw [if_neg h] at hword
      rw [List.map_cons, List.filterMap_cons_some hword, List.filter_cons_of_pos (by simpa using h),
        List.map_cons, ih]

theorem contains_list (text name : String) (argument : Argument)
    (h : ∀ word, ofWord word = argument ↔ word = name) :
    (list text).contains argument = (Blank.words text).contains name := by
  apply Bool.eq_iff_iff.mpr
  rw [list, List.contains_iff_mem, List.contains_iff_mem, List.mem_map]
  simp only [h, exists_eq_right]

end Argument

namespace Options

def or (o other : Options) : Options :=
  ⟨o.skipUnused || other.skipUnused, o.raw || other.raw⟩

def turn (state : Options × List Message) (word : String) : Options × List Message :=
  match Argument.ofWord word with
  | .skipUnused => ({ state.1 with skipUnused := true }, state.2)
  | .raw => ({ state.1 with raw := true }, state.2)
  | .unknown word =>
    (state.1, state.2 ++ [⟨.warn, "Unknown dump argument: " ++ Quoted.encode word⟩])

def warnings (text : String) : List Message :=
  (parseMessages text).filter fun m => m.level = .warn

theorem or_assoc (o other third : Options) : (o.or other).or third = o.or (other.or third) := by
  simp only [or, Bool.or_assoc]

theorem ofArguments_cons (argument : Argument) (rest : List Argument) :
    ofArguments (argument :: rest) = (ofArguments [argument]).or (ofArguments rest) := by
  simp [ofArguments, or]

theorem turn_eq (o : Options) (written : List Message) (word : String) :
    turn (o, written) word = (o.or (ofArguments [Argument.ofWord word]),
      written ++ (Argument.ofWord word).message?.toList) := by
  rw [turn]
  cases Argument.ofWord word with
  | skipUnused => simp [or, ofArguments, Argument.message?]
  | raw => simp [or, ofArguments, Argument.message?]
  | unknown word => simp [or, ofArguments, Argument.message?]

theorem foldl_turn (words : List String) (o : Options) (written : List Message) :
    words.foldl turn (o, written) = (o.or (ofArguments (words.map Argument.ofWord)),
      written ++ (words.map Argument.ofWord).filterMap Argument.message?) := by
  induction words generalizing o written with
  | nil => simp [or, ofArguments]
  | cons word rest ih =>
    have hmessages : ((word :: rest).map Argument.ofWord).filterMap Argument.message? =
        (Argument.ofWord word).message?.toList ++
          (rest.map Argument.ofWord).filterMap Argument.message? := by
      rw [List.map_cons, List.filterMap_cons]
      cases (Argument.ofWord word).message? <;> rfl
    rw [List.foldl_cons, turn_eq, ih, or_assoc, ← ofArguments_cons, hmessages, List.append_assoc,
      List.map_cons]

theorem warnings_eq (text : String) :
    warnings text = (Argument.list text).filterMap Argument.message? := by
  have hlevels : ∀ m ∈ (Argument.list text).filterMap Argument.message?,
      decide (m.level = .warn) = true := by
    rw [Argument.list, Argument.filterMap_message?_map]
    intro m hm
    obtain ⟨word, -, rfl⟩ := List.mem_map.mp hm
    rfl
  rw [warnings, parseMessages, List.filter_append, List.filter_eq_self.mpr hlevels]
  exact List.append_nil _

theorem parse_eq_contains (text : String) :
    parse text =
      ⟨(Blank.words text).contains "--skip-unused", (Blank.words text).contains "--raw"⟩ := by
  have hskip := Argument.contains_list text "--skip-unused" .skipUnused
    Argument.ofWord_eq_skipUnused_iff
  have hraw := Argument.contains_list text "--raw" .raw Argument.ofWord_eq_raw_iff
  rw [parse, ofArguments, hskip, hraw]

theorem parse_append_blank (text later : String) (w : Char) (hw : Blank.isBlank w) :
    parse (text ++ String.singleton w ++ later) = (parse text).or (parse later) := by
  simp only [parse_eq_contains, or, Blank.words_append_blank text later w hw, List.contains_append]

theorem warnings_append_blank (text later : String) (w : Char) (hw : Blank.isBlank w) :
    warnings (text ++ String.singleton w ++ later) = warnings text ++ warnings later := by
  simp only [warnings_eq, Argument.list, Blank.words_append_blank text later w hw, List.map_append,
    List.filterMap_append]

theorem skipUnused_parse_iff (text : String) :
    (parse text).skipUnused ↔ ∃ start, Blank.WordAt text start "--skip-unused" := by
  rw [parse_eq_contains, List.contains_iff_mem]
  exact Blank.mem_words_iff text "--skip-unused"

theorem raw_parse_iff (text : String) :
    (parse text).raw ↔ ∃ start, Blank.WordAt text start "--raw" := by
  rw [parse_eq_contains, List.contains_iff_mem]
  exact Blank.mem_words_iff text "--raw"

theorem parse_congr (text other : String)
    (h : ∀ word, Argument.Known word →
      ((∃ start, Blank.WordAt other start word) ↔ ∃ start, Blank.WordAt text start word)) :
    parse other = parse text := by
  have hskip := h "--skip-unused" (.inl rfl)
  have hraw := h "--raw" (.inr rfl)
  rw [← skipUnused_parse_iff, ← skipUnused_parse_iff] at hskip
  rw [← raw_parse_iff, ← raw_parse_iff] at hraw
  change (⟨(parse other).skipUnused, (parse other).raw⟩ : Options) = _
  rw [Bool.eq_iff_iff.mpr hskip, Bool.eq_iff_iff.mpr hraw]

theorem parseMessages_eq (text : String) :
    parseMessages text =
      (((Blank.wordsAt text).map Prod.snd).filter fun word => ¬ Argument.Known word).map
        (fun word => ⟨.warn, "Unknown dump argument: " ++ Quoted.encode word⟩) ++
          [(parse text).message] := by
  rw [← Blank.words_eq_map_wordsAt, ← Argument.filterMap_message?_map]
  rfl

/-- Each word of a text stands for itself: the options are those that a word is the name of, and the
log has a complaint about each other word in turn. Texts with a blank between them are parsed
apart. -/
theorem parse_word_by_word (text : String) :
    (∃ runs : List (Nat × String),
      runs.Pairwise (fun r s => r.1 < s.1) ∧
      (∀ start word, (start, word) ∈ runs ↔ Blank.WordAt text start word) ∧
      parseMessages text =
        ((runs.map Prod.snd).filter fun word => ¬ Argument.Known word).map
          (fun word => ⟨.warn, "Unknown dump argument: " ++ Quoted.encode word⟩) ++
        [⟨.debug, "Dump parameters: Parameters \x7b skip_unused: " ++
          boolText (parse text).skipUnused ++ ", raw: " ++ boolText (parse text).raw ++ " \x7d"⟩]) ∧
    ((parse text).skipUnused ↔ ∃ start, Blank.WordAt text start "--skip-unused") ∧
    ((parse text).raw ↔ ∃ start, Blank.WordAt text start "--raw") ∧
    (Blank.words text).foldl turn ({}, []) = (parse text, warnings text) ∧
    (∀ w, Blank.isBlank w → ∀ later,
      parse (text ++ String.singleton w ++ later) = (parse text).or (parse later) ∧
        warnings (text ++ String.singleton w ++ later) = warnings text ++ warnings later) ∧
    ∀ other,
      (∀ word, (∃ start, Blank.WordAt text start word) → ∃ start, Blank.WordAt other start word) →
      (∀ word, (∃ start, Blank.WordAt other start word) →
        (∃ start, Blank.WordAt text start word) ∨ ¬ Argument.Known word) →
      parse other = parse text := by
  refine ⟨⟨Blank.wordsAt text, Blank.pairwise_wordsAt text,
    fun start word => Blank.mem_wordsAt_iff text word start, parseMessages_eq text⟩,
    skipUnused_parse_iff text, raw_parse_iff text, ?_, ?_, ?_⟩
  · rw [foldl_turn, warnings_eq]
    rfl
  · intro w hw later
    exact ⟨parse_append_blank text later w hw, warnings_append_blank text later w hw⟩
  · intro other hkept hadded
    apply parse_congr
    intro word hknown
    constructor
    · intro h
      exact (hadded word h).resolve_right (not_not_intro hknown)
    · exact hkept word

/-- An ideographic space parts two words; a space of no width is a part of one. -/
theorem parse_of_ideographic_space :
    let text := "--skip-unused" ++ String.singleton '\u3000' ++ "--raw\u200b"
    Blank.isBlank '\u3000' ∧ parse text = ⟨true, false⟩ ∧
      warnings text = [⟨.warn, "Unknown dump argument: \"--raw\\u\x7b200b\x7d\""⟩] := by
  have hblank : Blank.isBlank '\u3000' := by decide
  obtain ⟨-, -, -, -, hparts, -⟩ := parse_word_by_word "--skip-unused"
  obtain ⟨hparse, hwarnings⟩ := hparts '\u3000' hblank "--raw\u200b"
  refine ⟨hblank, hparse.trans ?_, hwarnings.trans ?_⟩
  · decide
  · decide +kernel

end Options

end DescriptorTables
