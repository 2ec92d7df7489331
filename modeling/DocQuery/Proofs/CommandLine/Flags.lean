import DocQuery.CommandLine.Arguments
import DocQuery.Proofs.Outcome

/-!
# Flags between other arguments

Arguments fall into parts: plain ones, flags for an output, and the flag for stages together with the
argument that it takes, whatever that looks like.  Flags change nothing that plain arguments do
(`Gathered.addPlain_withFlags`), so reading all arguments is reading the plain ones alone and then
setting what the last flags of either kind say (`Gathered.addAll_eq`).  Hence where the flags stand
among the other arguments does not matter, and the call can be told from the three of them
(`Invocation.ofArguments_of_parts`).
-/

namespace DocQuery.CommandLine

/-! ### The parts of the arguments -/

/-- What one argument says, or the flag for stages with the argument that it takes. -/
inductive Part where
  | plain (argument : String)
  | output (wanted : Output)
  | stages (text : String)
  /-- the flag for stages as the last argument -/
  | bareStages
  | unknown (flag : String)
deriving DecidableEq

namespace Part

/-- What an argument says that takes no other one. -/
def ofArgument (argument : String) : Part :=
  match outputOf? argument with
  | some wanted => .output wanted
  | none => if isFlag argument then .unknown argument else .plain argument

def plain? : Part → Option String
  | .plain argument => some argument
  | _ => none

def output? : Part → Option Output
  | .output wanted => some wanted
  | _ => none

def stages? : Part → Option String
  | .stages text => some text
  | _ => none

/-- A part that is no fault by itself: a flag is known, and the one for stages has an array of stages
to take. -/
def IsSound : Part → Prop
  | .plain _ => True
  | .output _ => True
  | .stages text => ∃ stages, readStages text = .ok stages
  | .bareStages => False
  | .unknown _ => False

end Part

/-- The parts that arguments fall into. -/
def parts : List String → List Part
  | [] => []
  | argument :: rest =>
    if argument = "--pre" then
      match rest with
      | [] => [.bareStages]
      | text :: rest => .stages text :: parts rest
    else .ofArgument argument :: parts rest

theorem parts_cons_of_ne {argument : String} (h : argument ≠ "--pre") (rest : List String) :
    parts (argument :: rest) = .ofArgument argument :: parts rest := by
  cases rest <;> simp [parts, h]

/-- The arguments that are neither flags nor taken by one. -/
def plainOf (arguments : List String) : List String := (parts arguments).filterMap Part.plain?

/-- What the last flag for an output asks for. -/
def lastOutput? (arguments : List String) : Option Output :=
  ((parts arguments).filterMap Part.output?).getLast?

/-- What the last flag for stages takes. -/
def lastStages? (arguments : List String) : Option String :=
  ((parts arguments).filterMap Part.stages?).getLast?

section FirstPart

variable {arguments rest : List String} {part : Part} (h : parts arguments = part :: parts rest)
include h

theorem filterMap_parts {α : Type} (f : Part → Option α) :
    (parts arguments).filterMap f = (f part).toList ++ (parts rest).filterMap f := by
  rw [h, List.filterMap_cons]
  cases f part <;> rfl

theorem plainOf_of_parts : plainOf arguments = part.plain?.toList ++ plainOf rest :=
  filterMap_parts h Part.plain?

theorem lastOutput?_of_parts : lastOutput? arguments = (lastOutput? rest).or part.output? := by
  rw [lastOutput?, filterMap_parts h, List.getLast?_append]
  cases part.output? <;> rfl

theorem lastStages?_of_parts : lastStages? arguments = (lastStages? rest).or part.stages? := by
  rw [lastStages?, filterMap_parts h, List.getLast?_append]
  cases part.stages? <;> rfl

end FirstPart

/-! ### What plain arguments do -/

/-- A text is cut at its first equals sign into a key and a value. -/
def IsCut (argument : String) (pair : String × String) : Prop :=
  argument.toList = pair.1.toList ++ '=' :: pair.2.toList ∧ '=' ∉ pair.1.toList

variable {argument text : String} {arguments others plain rest : List String} {pair : String × String}

theorem splitPair?_of_isCut (h : IsCut argument pair) : splitPair? argument = some pair := by
  obtain ⟨hcut, hkey⟩ := h
  have hbefore : ∀ c ∈ pair.1.toList, (c != '=') = true := fun c hc =>
    bne_iff_ne.2 fun e => hkey (e ▸ hc)
  rw [splitPair?, hcut, if_pos (by simp), List.takeWhile_append_of_pos hbefore,
    List.dropWhile_append_of_pos hbefore]
  simp

theorem splitPair?_eq_some_iff : splitPair? argument = some pair ↔ IsCut argument pair := by
  refine ⟨fun h => ?_, splitPair?_of_isCut⟩
  have hmem : '=' ∈ argument.toList := by
    rw [← List.contains_iff_mem]
    by_contra hno
    rw [splitPair?, if_neg hno] at h
    cases h
  obtain ⟨before, after, hcut, hbefore⟩ := List.eq_append_cons_of_mem hmem
  have hpair : IsCut argument (String.ofList before, String.ofList after) := by
    simpa [IsCut] using ⟨hcut, hbefore⟩
  rw [splitPair?_of_isCut hpair] at h
  exact Option.some.inj h ▸ hpair

namespace Gathered

variable {done result : Gathered}

/-- Behind the first three, plain arguments are pairs of the request. -/
theorem foldlM_addPlain_of_pairs (h : done.positional.length = 3) :
    plain.foldlM addPlain done = .ok result ↔ ∃ pairs, List.Forall₂ IsCut plain pairs ∧
      result = { done with request := Keyed.putAll done.request pairs } := by
  induction plain generalizing done with
  | nil =>
    simp only [List.foldlM_nil, List.forall₂_nil_left_iff, exists_eq_left]
    exact ⟨fun hresult => (Except.ok.inj hresult).symm, fun hresult => congrArg Except.ok hresult.symm⟩
  | cons argument rest ih =>
    have hadd : ∀ next, done.addPlain argument = .ok next ↔ ∃ pair, IsCut argument pair ∧
        next = { done with request := done.request.insert pair.1 pair.2 } := by
      intro next
      rw [addPlain, if_neg (by omega)]
      simp only [← splitPair?_eq_some_iff]
      cases splitPair? argument with
      | none => simp
      | some pair => simp [eq_comm]
    simp only [List.foldlM_cons, Outcome.bind_eq_ok_iff, hadd, List.forall₂_cons_left_iff]
    constructor
    · rintro ⟨_, ⟨pair, hcut, rfl⟩, hrest⟩
      obtain ⟨pairs, hpairs, rfl⟩ := (ih (by exact h)).1 hrest
      exact ⟨pair :: pairs, ⟨pair, pairs, hcut, hpairs, rfl⟩, rfl⟩
    · rintro ⟨_, ⟨pair, pairs, hcut, hpairs, rfl⟩, rfl⟩
      exact ⟨_, ⟨pair, hcut, rfl⟩, (ih (by exact h)).2 ⟨pairs, hpairs, rfl⟩⟩

/-- Three plain arguments come first, and the others are pairs. -/
theorem foldlM_addPlain_start :
    plain.foldlM addPlain start = .ok result ∧ result.positional.length = 3 ↔
      3 ≤ plain.length ∧ ∃ pairs, List.Forall₂ IsCut (plain.drop 3) pairs ∧
        result = ⟨plain.take 3, Request.ofPairs pairs, .find, []⟩ := by
  match plain with
  | catalog :: data :: collection :: rest =>
    have hthree : (catalog :: data :: collection :: rest).foldlM addPlain start =
        rest.foldlM addPlain ⟨[catalog, data, collection], [], .find, []⟩ := rfl
    rw [hthree, foldlM_addPlain_of_pairs rfl]
    constructor
    · rintro ⟨⟨pairs, hpairs, rfl⟩, -⟩
      exact ⟨by simp, pairs, hpairs, rfl⟩
    · rintro ⟨-, pairs, hpairs, rfl⟩
      exact ⟨⟨pairs, hpairs, rfl⟩, rfl⟩
  | [] => exact iff_of_false (by rintro ⟨h, hthree⟩; cases h; cases hthree) (by simp)
  | [first] => exact iff_of_false (by rintro ⟨h, hthree⟩; cases h; cases hthree) (by simp)
  | [first, second] => exact iff_of_false (by rintro ⟨h, hthree⟩; cases h; cases hthree) (by simp)

/-! ### What flags do -/

/-- The arguments so far, with the output and the stages that flags set. -/
def withFlags (output : Output) (preStages : List Document) (done : Gathered) : Gathered :=
  { done with output, preStages }

/-- A flag and a plain argument can change places. -/
theorem addPlain_withFlags (output : Output) (preStages : List Document) (done : Gathered)
    (argument : String) : (done.withFlags output preStages).addPlain argument =
      (done.addPlain argument).map (withFlags output preStages) := by
  unfold addPlain withFlags
  dsimp only
  by_cases hplace : done.positional.length < 3
  · rw [if_pos hplace, if_pos hplace]
    rfl
  · rw [if_neg hplace, if_neg hplace]
    cases splitPair? argument <;> rfl

/-- A plain argument keeps what flags have set. -/
theorem flags_of_addPlain (h : done.addPlain argument = .ok result) :
    result.output = done.output ∧ result.preStages = done.preStages := by
  have hkept := addPlain_withFlags done.output done.preStages done argument
  rw [withFlags, h] at hkept
  have hresult : result = result.withFlags done.output done.preStages := Except.ok.inj hkept
  rw [hresult]
  exact ⟨rfl, rfl⟩

theorem foldlM_addPlain_withFlags (output : Output) (preStages : List Document) (done : Gathered)
    (plain : List String) : plain.foldlM addPlain (done.withFlags output preStages) =
      (plain.foldlM addPlain done).map (withFlags output preStages) := by
  induction plain generalizing done with
  | nil => rfl
  | cons argument rest ih =>
    rw [List.foldlM_cons, List.foldlM_cons, addPlain_withFlags]
    cases done.addPlain argument with
    | error fault => rfl
    | ok next => exact ih next

/-- A later flag takes the place of an earlier one. -/
theorem map_withFlags (output later : Output) (preStages laterStages : List Document)
    (outcome : Except Fault Gathered) :
    (outcome.map (withFlags output preStages)).map (withFlags later laterStages) =
      outcome.map (withFlags later laterStages) := by
  cases outcome <;> rfl

/-- The stages that the argument of a flag writes, if there is one. -/
def stagesOr (preStages : List Document) : Option String → List Document
  | none => preStages
  | some text => (readStages text).toOption.getD []

theorem stagesOr_or {stages : List Document} (h : readStages text = .ok stages)
    (preStages : List Document) (later : Option String) :
    stagesOr preStages (later.or (some text)) = stagesOr stages later := by
  cases later with
  | none => simp [stagesOr, h, Except.toOption]
  | some later => rfl

/-- One argument that is no fault is a flag for an output or a plain one. -/
theorem add_of_isSound (h : (Part.ofArgument argument).IsSound) (done : Gathered) :
    (∃ wanted, Part.ofArgument argument = .output wanted ∧
      done.add argument = .ok (done.withFlags wanted done.preStages)) ∨
    (Part.ofArgument argument = .plain argument ∧ done.add argument = done.addPlain argument) := by
  unfold Part.ofArgument at h ⊢
  unfold add
  cases houtput : outputOf? argument with
  | some wanted => exact .inl ⟨wanted, rfl, rfl⟩
  | none =>
    rw [houtput] at h
    by_cases hflag : isFlag argument = true
    · rw [if_pos hflag] at h
      exact h.elim
    · exact .inr ⟨if_neg hflag, if_neg hflag⟩

/-- Reading all arguments is reading the plain ones and then setting what the last flags say. -/
theorem addAll_eq (h : ∀ part ∈ parts arguments, part.IsSound) (done : Gathered) :
    done.addAll arguments = ((plainOf arguments).foldlM addPlain done).map
      (withFlags ((lastOutput? arguments).getD done.output)
        (stagesOr done.preStages (lastStages? arguments))) := by
  induction arguments using parts.induct generalizing done with
  | case1 => rfl
  | case2 => exact (h .bareStages (by simp [parts])).elim
  | case3 text rest ih =>
    have hparts : parts ("--pre" :: text :: rest) = .stages text :: parts rest := by simp [parts]
    rw [hparts, List.forall_mem_cons] at h
    obtain ⟨⟨stages, hstages⟩, hrest⟩ := h
    have hlast : stagesOr done.preStages ((lastStages? rest).or (some text)) =
        stagesOr stages (lastStages? rest) := stagesOr_or hstages _ _
    rw [addAll, if_pos rfl, hstages, Outcome.ok_bind]
    refine (ih hrest (done.withFlags done.output stages)).trans ?_
    rw [foldlM_addPlain_withFlags, map_withFlags, plainOf_of_parts hparts, lastOutput?_of_parts hparts,
      lastStages?_of_parts hparts, show (Part.stages text).stages? = some text from rfl, hlast,
      show (Part.stages text).output? = none from rfl, Option.or_none]
    rfl
  | case4 argument rest hstages ih =>
    have hparts := parts_cons_of_ne hstages rest
    rw [hparts, List.forall_mem_cons] at h
    obtain ⟨hsound, hrest⟩ := h
    have hstep : done.addAll (argument :: rest) = done.add argument >>= fun next => next.addAll rest := by
      cases rest <;> simp [addAll, hstages]
    rw [hstep, plainOf_of_parts hparts, lastOutput?_of_parts hparts, lastStages?_of_parts hparts]
    rcases add_of_isSound hsound done with ⟨wanted, hpart, hadd⟩ | ⟨hpart, hadd⟩
    · rw [hadd, hpart, Outcome.ok_bind, ih hrest, foldlM_addPlain_withFlags, map_withFlags]
      rw [show (Part.output wanted).stages? = none from rfl, Option.or_none,
        show (Part.output wanted).output? = some wanted from rfl, Option.getD_or]
      rfl
    · rw [hadd, hpart]
      show _ = ((argument :: plainOf rest).foldlM addPlain done).map _
      rw [List.foldlM_cons]
      cases hnext : done.addPlain argument with
      | error fault => rfl
      | ok next =>
        obtain ⟨houtput, hstages⟩ := flags_of_addPlain hnext
        rw [Outcome.ok_bind, Outcome.ok_bind, ih hrest, houtput, hstages,
          show (Part.plain argument).output? = none from rfl,
          show (Part.plain argument).stages? = none from rfl, Option.or_none, Option.or_none]

end Gathered

/-! ### The call -/

namespace Invocation

/-- What a call is that plain arguments and the last flags ask for: the first three arguments name the
files and the collection, and the others are cut into the pairs of the request. -/
structure Says (call : Invocation) (plain : List String) (output : Option Output)
    (stages : Option String) : Prop where
  names : plain.take 3 = [call.catalog, call.data, call.collection]
  request : ∃ pairs, List.Forall₂ IsCut (plain.drop 3) pairs ∧ call.request = Request.ofPairs pairs
  output : call.output = output.getD .find
  noStages : stages = none → call.preStages = []
  stages : ∀ text, stages = some text → readStages text = .ok call.preStages

variable {call : Invocation} {output : Output} {preStages : List Document}

theorem complete_eq_ok_iff {done : Gathered} : done.complete = .ok call ↔
    done = ⟨[call.catalog, call.data, call.collection], call.request, call.output, call.preStages⟩ := by
  obtain ⟨positional, request, output, preStages⟩ := done
  obtain ⟨catalog, data, collection, _, _, _⟩ := call
  unfold Gathered.complete
  dsimp only
  split
  · simp only [Except.ok.injEq, Invocation.mk.injEq, Gathered.mk.injEq, List.cons.injEq, and_true,
      and_assoc]
  · next hnames =>
    simp only [reduceCtorEq, false_iff, Gathered.mk.injEq, not_and]
    exact fun h => absurd h (hnames catalog data collection)

theorem preStages_eq_iff {stages : Option String} {preStages : List Document}
    (h : ∀ text, stages = some text → ∃ read, readStages text = .ok read) :
    preStages = Gathered.stagesOr [] stages ↔
      (stages = none → preStages = []) ∧ ∀ text, stages = some text → readStages text = .ok preStages := by
  cases stages with
  | none => simp [Gathered.stagesOr]
  | some text =>
    obtain ⟨read, hread⟩ := h text rfl
    simp [Gathered.stagesOr, hread, Except.toOption, eq_comm]

/-- The call that arguments make whose flags are no faults. -/
theorem ofArguments_eq_ok_iff (h : ∀ part ∈ parts arguments, part.IsSound) :
    ofArguments arguments = .ok call ↔
      call.Says (plainOf arguments) (lastOutput? arguments) (lastStages? arguments) := by
  have hread : ∀ text, lastStages? arguments = some text → ∃ stages, readStages text = .ok stages := by
    intro text htext
    obtain ⟨part, hpart, hstages⟩ := List.mem_filterMap.1 (List.mem_of_getLast? htext)
    cases part <;> cases hstages
    exact h _ hpart
  rw [ofArguments, Gathered.addAll_eq h]
  simp only [Outcome.bind_eq_ok_iff, Outcome.map_eq_ok_iff, complete_eq_ok_iff]
  constructor
  · rintro ⟨_, ⟨done, hdone, rfl⟩, hcall⟩
    obtain ⟨hpositional, hrequest, houtput, hstages⟩ := Gathered.mk.inj hcall
    obtain ⟨-, pairs, hpairs, rfl⟩ :=
      Gathered.foldlM_addPlain_start.1 ⟨hdone, by rw [show done.positional = _ from hpositional]; rfl⟩
    obtain ⟨hnone, hsome⟩ := (preStages_eq_iff hread).1 hstages.symm
    exact ⟨hpositional, ⟨pairs, hpairs, hrequest.symm⟩, houtput.symm, hnone, hsome⟩
  · rintro ⟨hnames, ⟨pairs, hpairs, hrequest⟩, houtput, hnone, hsome⟩
    have hthree : 3 ≤ (plainOf arguments).length := by
      have hlength := congrArg List.length hnames
      rw [List.length_take] at hlength
      simp only [List.length_cons, List.length_nil] at hlength
      omega
    obtain ⟨hdone, -⟩ := Gathered.foldlM_addPlain_start.2 ⟨hthree, pairs, hpairs, rfl⟩
    refine ⟨_, ⟨_, hdone, rfl⟩, ?_⟩
    rw [← hnames, hrequest, houtput, (preStages_eq_iff hread).2 ⟨hnone, hsome⟩]
    rfl

/-- **Flags may stand anywhere.**  If in two lists of arguments every flag is known and every flag for
stages has some to take, and the lists agree in the arguments that are neither flags nor taken by one, in
the last flag for an output and in what the last flag for stages takes, then they make the same call or
fail alike.  It is the call of the first three of these arguments, of the request that the others write,
of that output, and of those stages. -/
theorem ofArguments_of_parts (hsound : ∀ part ∈ parts arguments, part.IsSound)
    (hothers : ∀ part ∈ parts others, part.IsSound) (hplain : plainOf arguments = plainOf others)
    (houtput : lastOutput? arguments = lastOutput? others)
    (hstages : lastStages? arguments = lastStages? others) :
    ofArguments arguments = ofArguments others ∧
      ∀ call, ofArguments arguments = .ok call ↔
        call.Says (plainOf arguments) (lastOutput? arguments) (lastStages? arguments) := by
  refine ⟨?_, fun call => ofArguments_eq_ok_iff hsound⟩
  rw [ofArguments, ofArguments, Gathered.addAll_eq hsound, Gathered.addAll_eq hothers, hplain, houtput,
    hstages]

end Invocation

/-! ### A page of persons -/

namespace PageOfPersons

def flagsFirst : List String :=
  ["--count", "--page", "--pre", "[\x7b\x7d]", "c.json", "d.json", "persons", "name=Ann", "$limit=2",
    "name=Ben=Cem"]

def flagsBetween : List String :=
  ["c.json", "--pre", "[]", "d.json", "--pipeline", "persons", "name=Ann", "--pre", "[\x7b\x7d]",
    "$limit=2", "name=Ben=Cem", "--page"]

theorem parts_flagsFirst : parts flagsFirst = [.output .count, .output .page, .stages "[\x7b\x7d]",
    .plain "c.json", .plain "d.json", .plain "persons", .plain "name=Ann", .plain "$limit=2",
    .plain "name=Ben=Cem"] := by decide +kernel

theorem parts_flagsBetween : parts flagsBetween = [.plain "c.json", .stages "[]", .plain "d.json",
    .output .pipeline, .plain "persons", .plain "name=Ann", .stages "[\x7b\x7d]", .plain "$limit=2",
    .plain "name=Ben=Cem", .output .page] := by decide +kernel

/-- The same page, with one empty stage, is asked for by both. -/
theorem page_asked_for_twice :
    (∀ part ∈ parts flagsFirst, part.IsSound) ∧ (∀ part ∈ parts flagsBetween, part.IsSound) ∧
      plainOf flagsFirst = plainOf flagsBetween ∧
      lastOutput? flagsFirst = lastOutput? flagsBetween ∧
      lastStages? flagsFirst = lastStages? flagsBetween ∧
      Invocation.ofArguments flagsFirst = Invocation.ofArguments flagsBetween ∧
      Invocation.ofArguments flagsFirst =
        .ok ⟨"c.json", "d.json", "persons", [("name", "Ben=Cem"), ("$limit", "2")], .page, [[]]⟩ := by
  have hempty : readStages "[\x7b\x7d]" = .ok [[]] := by cbv
  have hnone : readStages "[]" = .ok [] := by cbv
  have hfirst : ∀ part ∈ parts flagsFirst, part.IsSound := by
    simpa [parts_flagsFirst, Part.IsSound] using ⟨_, hempty⟩
  have hbetween : ∀ part ∈ parts flagsBetween, part.IsSound := by
    simpa [parts_flagsBetween, Part.IsSound] using ⟨⟨_, hnone⟩, ⟨_, hempty⟩⟩
  have hplain : plainOf flagsFirst = plainOf flagsBetween := by
    rw [plainOf, plainOf, parts_flagsFirst, parts_flagsBetween]
    rfl
  have houtput : lastOutput? flagsFirst = lastOutput? flagsBetween := by
    rw [lastOutput?, lastOutput?, parts_flagsFirst, parts_flagsBetween]
    rfl
  have hstages : lastStages? flagsFirst = lastStages? flagsBetween := by
    rw [lastStages?, lastStages?, parts_flagsFirst, parts_flagsBetween]
    rfl
  obtain ⟨hsame, hcall⟩ := Invocation.ofArguments_of_parts hfirst hbetween hplain houtput hstages
  refine ⟨hfirst, hbetween, hplain, houtput, hstages, hsame, (hcall _).2 ?_⟩
  rw [plainOf, lastOutput?, lastStages?, parts_flagsFirst]
  refine ⟨rfl, ⟨[("name", "Ann"), ("$limit", "2"), ("name", "Ben=Cem")], ?_, rfl⟩, rfl, ?_, ?_⟩
  · refine .cons ?_ (.cons ?_ (.cons ?_ .nil)) <;> exact ⟨by decide, by decide⟩
  · exact fun h => by cases h
  · rintro text h
    obtain rfl : "[\x7b\x7d]" = text := Option.some.inj h
    exact hempty

end PageOfPersons

end DocQuery.CommandLine
