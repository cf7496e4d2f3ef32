import LintRatchet.CommandLine.Reader
import Mathlib.Data.List.Nodup

/-!
# Options in any order

A `Request` is what somebody wants of the tool: a command and options for it,
each at most once, with values that do not look like options.  `Arranges` lists
the ways to write it down.  The options stand in any order, each in one of its
spellings, and those that every command takes stand on either side of the
command's name.

Main statement: every arrangement is read as the same command line, which has
the values of the request and the defaults otherwise (`parse_arranged`).

The reader takes an option for good only when the next one comes.  So the
invariant is about what a scope holds once the pending option has been settled
(`Given.Holds`).  An option that has been read in full does not await a value,
and only then is an argument looked at as a command.  Therefore a value may be
the name of a command.
-/

namespace LintRatchet.CommandLine

/-! ## Requests -/

/-- An option that is given, with its value if it has one. -/
inductive Setting where
  | switch (s : Switch)
  | parameter (p : Parameter) (value : String)
deriving DecidableEq

/-- The option that a setting is for. -/
def Setting.kind : Setting → OptionKind
  | switch s => .switch s
  | parameter p _ => .parameter p

/-- The options that every command takes. -/
def sharedKinds : List OptionKind :=
  [.switch .verbose, .switch .debug, .parameter .config, .parameter .baseline]

/-- The options that a command takes beyond these. -/
def CommandName.ownKinds : CommandName → List OptionKind
  | check => [.parameter .input, .parameter .linterVersion, .switch .fix,
      .switch .skipBaselineUpdate, .switch .failOnImprovement, .switch .strict, .parameter .out]
  | init => [.parameter .input, .parameter .linterVersion]
  | update => [.parameter .input, .parameter .linterVersion]
  | clear => []
  | status => [.parameter .format]

/-- The value does not look like an option.  A format is one of the two. -/
def Setting.WellValued : Setting → Prop
  | switch _ => True
  | parameter .format value => value = "text" ∨ value = "json"
  | parameter _ value => value = "-" ∨ ∃ c cs, value.toList = c :: cs ∧ c ≠ '-'

/-- A command and options for it. -/
structure Request where
  name : CommandName
  settings : List Setting
  /-- No option is given twice. -/
  distinct : (settings.map Setting.kind).Nodup
  taken : ∀ x ∈ settings, x.kind ∈ sharedKinds ++ name.ownKinds
  valued : ∀ x ∈ settings, x.WellValued

/-- The value of the parameter, if the setting is for it. -/
def Setting.valueFor? (p : Parameter) : Setting → Option String
  | switch _ => none
  | parameter q value => if q = p then some value else none

namespace Request

/-- The switch is among the settings. -/
def has (r : Request) (s : Switch) : Bool := r.settings.contains (.switch s)

/-- The value that the settings give to a parameter. -/
def value? (r : Request) (p : Parameter) : Option String :=
  r.settings.findSome? (Setting.valueFor? p)

/-- Where the report comes from.  Without a version the given one is taken. -/
def report (r : Request) (version : Option String) : ReportOptions :=
  ⟨r.value? .input, (r.value? .linterVersion).or version⟩

/-- The command line with the values of the request, and the defaults otherwise. -/
def commandLine (r : Request) (version : Option String) : CommandLine where
  verbose := r.has .verbose
  debug := r.has .debug
  config := r.value? .config
  baseline := r.value? .baseline
  command :=
    match r.name with
    | .check => .check {
        toReportOptions := r.report version
        fix := r.has .fix
        skipBaselineUpdate := r.has .skipBaselineUpdate
        failOnImprovement := r.has .failOnImprovement
        strict := r.has .strict
        out := r.value? .out }
    | .init => .init (r.report version)
    | .update => .update (r.report version)
    | .clear => .clear
    | .status => .status (if r.value? .format = some "json" then .json else .text)

end Request

/-! ## Ways to write a request -/

/-- The word of a switch, after its dashes. -/
def Switch.word : Switch → String
  | verbose => "verbose"
  | debug => "debug"
  | fix => "fix"
  | skipBaselineUpdate => "skip-baseline-update"
  | failOnImprovement => "fail-on-improvement"
  | strict => "strict"

/-- The word of a parameter, after its dashes. -/
def Parameter.word : Parameter → String
  | config => "config"
  | baseline => "baseline"
  | input => "input"
  | linterVersion => "biome-version"
  | out => "out"
  | format => "format"

/-- The word of an option, after its dashes. -/
def OptionKind.word : OptionKind → String
  | help => "help"
  | switch s => s.word
  | parameter p => p.word

/-- The word of a command. -/
def CommandName.word : CommandName → String
  | check => "check"
  | init => "init"
  | update => "update"
  | clear => "clear"
  | status => "status"

/-- The arguments for an option. -/
inductive Spelled : Setting → List String → Prop
  | letter : Spelled (.switch .verbose) ["-v"]
  | long (s : Switch) : Spelled (.switch s) ["--" ++ s.word]
  | apart (p : Parameter) (value : String) : Spelled (.parameter p value) ["--" ++ p.word, value]
  | attached (p : Parameter) (value : String) :
      Spelled (.parameter p value) ["--" ++ p.word ++ "=" ++ value]

/-- The arguments are the options of the request and the name of its command. -/
inductive Request.Arranges (r : Request) : List String → Prop
  | mk {before after : List (Setting × List String)} :
      ((before ++ after).map Prod.fst).Perm r.settings →
      (∀ x ∈ before ++ after, Spelled x.1 x.2) →
      (∀ x ∈ before, x.1.kind ∈ sharedKinds) →
      r.Arranges (before.flatMap Prod.snd ++ r.name.word :: after.flatMap Prod.snd)

/-! ## What a scope holds -/

namespace Given

variable {g : Given} {done : List Setting} {s : Switch} {p : Parameter} {value : String}

/-- The options have been taken for good. -/
structure Settled (g : Given) (done : List Setting) : Prop where
  pending : g.pending = none
  switch : ∀ s, s ∈ g.switches ↔ .switch s ∈ done
  value : ∀ p v, g.values.lookup p = some v ↔ .parameter p v ∈ done

/-- The options have been read in full, and nothing speaks against them. -/
structure Holds (g : Given) (done : List Setting) : Prop where
  complete : g.awaits = false
  settles : ∃ g', g.settle = .ok g' ∧ g'.Settled done

theorem settled_empty : Settled {} [] where
  pending := rfl
  switch s := by simp
  value p v := by simp

theorem Settled.holds (h : g.Settled done) : g.Holds done where
  complete := by rw [awaits, h.pending]
  settles := ⟨g, by rw [settle, h.pending], h⟩

/-- A parameter that no option was for has no value. -/
theorem Settled.lookup_eq_none (h : g.Settled done) (hp : ∀ v, .parameter p v ∉ done) :
    g.values.lookup p = none := by
  cases hlookup : g.values.lookup p with
  | none => rfl
  | some v => exact absurd ((h.value p v).mp hlookup) (hp v)

theorem Settled.turnOn (h : g.Settled done) (hs : .switch s ∉ done) :
    ∃ g', g.turnOn s = .ok g' ∧ g'.Settled (.switch s :: done) := by
  have hsettle : g.settle = .ok g := by rw [settle, h.pending]
  have hnot : g.switches.contains s = false := by simpa [h.switch] using hs
  refine ⟨{ g with switches := s :: g.switches }, ?_, h.pending, fun t => ?_, fun p v => ?_⟩
  · simp only [Given.turnOn, hsettle, bind, Except.bind, hnot, Bool.false_eq_true, if_false, pure,
      Except.pure]
  · rw [List.mem_cons, List.mem_cons, h.switch, Setting.switch.injEq]
  · rw [h.value, List.mem_cons, or_iff_right nofun]

/-- A parameter that no option was for takes a value. -/
theorem Settled.assign (h : g.Settled done) (hp : ∀ v, .parameter p v ∉ done)
    (hv : p.accepts value = true) :
    ∃ g', g.assign p value = .ok g' ∧ g'.Settled (.parameter p value :: done) := by
  refine ⟨{ g with values := (p, value) :: g.values }, ?_, h.pending, fun t => ?_, fun q v => ?_⟩
  · simp only [Given.assign, h.lookup_eq_none hp, Option.isSome_none, Bool.false_eq_true, if_false,
      hv, if_true]
  · rw [h.switch, List.mem_cons, or_iff_right nofun]
  · rw [List.lookup_cons, List.mem_cons, Setting.parameter.injEq, ← h.value]
    by_cases hq : q = p
    · subst hq
      simp [h.lookup_eq_none hp, eq_comm]
    · have hne : (q == p) = false := by simpa using hq
      simp [hne, hq]

/-! ## Taking an option -/

theorem Holds.turnOn (h : g.Holds done) (hs : .switch s ∉ done) :
    ∃ g', g.turnOn s = .ok g' ∧ g'.Holds (.switch s :: done) := by
  obtain ⟨g₀, hsettle, hsettled⟩ := h.settles
  obtain ⟨g', hturn, hon⟩ := hsettled.turnOn hs
  have hsettle₀ : g₀.settle = .ok g₀ := by rw [settle, hsettled.pending]
  refine ⟨g', ?_, hon.holds⟩
  rw [Given.turnOn, hsettle₀] at hturn
  rw [Given.turnOn, hsettle]
  exact hturn

/-- A value that is attached to its parameter is taken for good at once. -/
theorem Holds.take_attached (h : g.Holds done) (hp : ∀ v, .parameter p v ∉ done)
    (hv : p.accepts value = true) :
    ∃ g', g.take (.parameter p) (some value) = .ok g' ∧ g'.Holds (.parameter p value :: done) := by
  obtain ⟨g₀, hsettle, hsettled⟩ := h.settles
  obtain ⟨g', hassign, hset⟩ := hsettled.assign hp hv
  exact ⟨g', by simp only [take, hsettle, bind, Except.bind, hassign], hset.holds⟩

/-- A parameter without a value waits for the next argument, and with it the scope holds the
option. -/
theorem Holds.take_apart (h : g.Holds done) (hp : ∀ v, .parameter p v ∉ done)
    (hv : p.accepts value = true) :
    ∃ g', g.take (.parameter p) none = .ok g' ∧ g'.pending = some (p, none) ∧
      Holds { g' with pending := some (p, some value) } (.parameter p value :: done) := by
  obtain ⟨g₀, hsettle, hsettled⟩ := h.settles
  obtain ⟨g', hassign, hset⟩ := hsettled.assign hp hv
  refine ⟨{ g₀ with pending := some (p, none) }, ?_, rfl, rfl, g', ?_, hset⟩
  · simp only [take, hsettle, bind, Except.bind, pure, Except.pure]
  · have hclear : ({ g₀ with pending := none } : Given) = g₀ := by
      rw [← hsettled.pending]
    simp only [settle, hclear, hassign]

end Given

/-! ## The shapes of arguments -/

theorem shape_switch (s : Switch) : Shape.of ("--" ++ s.word) = .long s.word none := by
  cases s <;> decide

theorem shape_parameter (p : Parameter) : Shape.of ("--" ++ p.word) = .long p.word none := by
  cases p <;> decide

/-- The value goes from the first equals sign to the end. -/
theorem shape_attached (p : Parameter) (value : String) :
    Shape.of ("--" ++ p.word ++ "=" ++ value) = .long p.word (some value) := by
  have hword : ∀ c ∈ p.word.toList, (c ≠ '=' : Bool) = true :=
    List.all_eq_true.mp (by cases p <;> decide)
  have hchars : ("--" ++ p.word ++ "=" ++ value).toList =
      '-' :: '-' :: (p.word.toList ++ '=' :: value.toList) := by
    simp [String.toList_append]
  obtain ⟨c, cs, hcs⟩ : ∃ c cs, p.word.toList = c :: cs := by cases p <;> exact ⟨_, _, rfl⟩
  have htake : (p.word.toList ++ '=' :: value.toList).takeWhile (· ≠ '=') = p.word.toList := by
    rw [List.takeWhile_append_of_pos hword]
    simp
  have hdrop : (p.word.toList ++ '=' :: value.toList).dropWhile (· ≠ '=') =
      '=' :: value.toList := by
    rw [List.dropWhile_append_of_pos hword]
    simp
  rw [Shape.of, hchars]
  rw [hcs, List.cons_append] at htake hdrop ⊢
  simp only [Shape.ofChars, htake, hdrop, String.ofList_toList]
  rw [← hcs, String.ofList_toList]

/-- A value that does not look like an option is a plain argument. -/
theorem shape_value {value : String}
    (h : value = "-" ∨ ∃ c cs, value.toList = c :: cs ∧ c ≠ '-') : Shape.of value = .plain := by
  rcases h with rfl | ⟨c, cs, hcs, hc⟩
  · decide
  · rw [Shape.of, hcs]
    unfold Shape.ofChars
    split
    · next heq => exact absurd (List.cons.inj heq).1 hc
    · next heq => exact absurd (List.cons.inj heq).1 hc
    · next heq => exact absurd (List.cons.inj heq).1 hc
    · rfl

/-! ## Scanning -/

/-- An argument that starts with a dash is neither a command nor the end of the options. -/
theorem scan_cons_of_dash {scope : Scope} {g : Given} {a : String} {as : List String}
    (ha : a.toList.head? = some '-') (hescape : a ≠ "--") :
    scan scope g (a :: as) = (g.scanArgument scope a >>= fun g => scan scope g as) := by
  have hword : ∀ {b : String}, b.toList.head? ≠ some '-' → a ≠ b := by
    rintro b hb rfl
    exact hb ha
  have hhelp : a ≠ "help" := hword (by decide)
  have hnames : ∀ m ∈ CommandName.named, m.1.toList.head? ≠ some '-' := by decide
  have hnamed : CommandName.named.lookup a = none := by
    refine List.lookup_eq_none_iff.mpr fun m hm => ?_
    simpa using hword (hnames m hm)
  rw [scan, if_neg (by simp [hhelp]), hnamed, ite_self, if_neg hescape]

/-- An argument is taken as the value that the scope awaits, whatever it says. -/
theorem scan_cons_of_awaits {scope : Scope} {g : Given} {p : Parameter} {value : String}
    {as : List String} (hg : g.pending = some (p, none)) (hv : Shape.of value = .plain) :
    scan scope g (value :: as) = scan scope { g with pending := some (p, some value) } as := by
  have hawaits : g.awaits = true := by rw [Given.awaits, hg]
  have hescape : value ≠ "--" := by
    rintro rfl
    exact absurd hv (by decide)
  rw [scan, if_neg (by simp [hawaits]), if_neg (by simp [hawaits]), if_neg hescape,
    Given.scanArgument, hv, hg]
  rfl

/-- The scope has the option under its word. -/
def Scope.Knows (scope : Scope) (k : OptionKind) : Prop := scope.options.lookup k.word = some k

theorem Setting.WellValued.accepts {p : Parameter} {value : String}
    (h : WellValued (.parameter p value)) : p.accepts value = true := by
  have hne : (value = "-" ∨ ∃ c cs, value.toList = c :: cs ∧ c ≠ '-') → value ≠ "" := by
    rintro (rfl | ⟨c, cs, hcs, -⟩)
    · decide
    · rintro rfl
      cases hcs
  cases p with
  | linterVersion => rfl
  | format => rcases h with rfl | rfl <;> rfl
  | config | baseline | input | out => simpa [Parameter.accepts] using hne h

theorem Setting.WellValued.shape {p : Parameter} {value : String}
    (h : WellValued (.parameter p value)) : Shape.of value = .plain := by
  cases p with
  | format => rcases h with rfl | rfl <;> decide
  | config | baseline | input | linterVersion | out => exact shape_value h

theorem not_mem_of_kind {x : Setting} {done : List Setting} (h : x.kind ∉ done.map Setting.kind)
    {y : Setting} (hy : y.kind = x.kind) : y ∉ done :=
  fun hmem => h (hy ▸ List.mem_map_of_mem hmem)

/-- The arguments for an option bring a scope that holds some options to hold that one too. -/
theorem Spelled.scan {scope : Scope} {g : Given} {done : List Setting} {x : Setting}
    {words : List String} (hx : Spelled x words) (h : g.Holds done)
    (hfresh : x.kind ∉ done.map Setting.kind) (hknows : scope.Knows x.kind) (hvalued : x.WellValued)
    (rest : List String) :
    ∃ g', CommandLine.scan scope g (words ++ rest) = CommandLine.scan scope g' rest ∧
      g'.Holds (x :: done) := by
  cases hx with
  | letter =>
    obtain ⟨g', hturn, hholds⟩ := h.turnOn (not_mem_of_kind hfresh rfl)
    have hshape : Shape.of "-v" = .short ['v'] := by decide
    refine ⟨g', ?_, hholds⟩
    rw [List.singleton_append, scan_cons_of_dash (by decide) (by decide),
      Given.scanArgument, hshape]
    simp only [Given.takeLetters, shortOption?, if_true, Given.take, hturn, bind, Except.bind]
  | long s =>
    obtain ⟨g', hturn, hholds⟩ := h.turnOn (not_mem_of_kind hfresh rfl)
    have hknown : scope.options.lookup s.word = some (.switch s) := hknows
    refine ⟨g', ?_, hholds⟩
    rw [List.singleton_append, scan_cons_of_dash (by cases s <;> decide)
      (by cases s <;> decide), Given.scanArgument, shape_switch]
    simp only [hknown, Given.take, hturn, bind, Except.bind]
  | apart p value =>
    obtain ⟨g', htake, hpending, hholds⟩ :=
      h.take_apart (fun v => not_mem_of_kind hfresh rfl) hvalued.accepts
    have hknown : scope.options.lookup p.word = some (.parameter p) := hknows
    refine ⟨_, ?_, hholds⟩
    rw [List.cons_append, List.singleton_append, scan_cons_of_dash (by cases p <;> decide)
      (by cases p <;> decide), Given.scanArgument, shape_parameter]
    simp only [hknown, htake, bind, Except.bind]
    exact scan_cons_of_awaits hpending hvalued.shape
  | attached p value =>
    obtain ⟨g', htake, hholds⟩ :=
      h.take_attached (fun v => not_mem_of_kind hfresh rfl) hvalued.accepts
    have hknown : scope.options.lookup p.word = some (.parameter p) := hknows
    have hdash : ("--" ++ p.word ++ "=" ++ value).toList.head? = some '-' := by
      simp [String.toList_append]
    have hescape : "--" ++ p.word ++ "=" ++ value ≠ "--" := by
      intro heq
      have hshape := shape_attached p value
      rw [heq, show Shape.of "--" = .escape by decide] at hshape
      cases hshape
    refine ⟨g', ?_, hholds⟩
    rw [List.singleton_append, scan_cons_of_dash hdash hescape, Given.scanArgument, shape_attached]
    simp only [hknown, htake, bind, Except.bind]

/-- The arguments for several options, by induction on the options. -/
theorem scan_all {scope : Scope} {g : Given} {done : List Setting}
    {xs : List (Setting × List String)} (h : g.Holds done)
    (hdistinct : (xs.map fun x => x.1.kind).Nodup)
    (hfresh : ∀ x ∈ xs, x.1.kind ∉ done.map Setting.kind) (hspelled : ∀ x ∈ xs, Spelled x.1 x.2)
    (hknows : ∀ x ∈ xs, scope.Knows x.1.kind) (hvalued : ∀ x ∈ xs, x.1.WellValued)
    (rest : List String) :
    ∃ g', scan scope g (xs.flatMap Prod.snd ++ rest) = scan scope g' rest ∧
      g'.Holds ((xs.map Prod.fst).reverse ++ done) := by
  induction xs generalizing g done with
  | nil => exact ⟨g, rfl, h⟩
  | cons x xs ih =>
    obtain ⟨hdiffers, hdistinct⟩ := List.nodup_cons.mp hdistinct
    obtain ⟨hfresh, hfreshes⟩ := List.forall_mem_cons.mp hfresh
    obtain ⟨hspelled, hspelleds⟩ := List.forall_mem_cons.mp hspelled
    obtain ⟨hknow, hknows⟩ := List.forall_mem_cons.mp hknows
    obtain ⟨hvalued, hvalueds⟩ := List.forall_mem_cons.mp hvalued
    obtain ⟨g', hscan, hholds⟩ :=
      hspelled.scan h hfresh hknow hvalued (xs.flatMap Prod.snd ++ rest)
    have hstillFresh : ∀ y ∈ xs, y.1.kind ∉ (x.1 :: done).map Setting.kind := fun y hy => by
      rw [List.map_cons, List.mem_cons, not_or]
      exact ⟨fun heq => hdiffers (List.mem_map.mpr ⟨y, hy, heq⟩), hfreshes y hy⟩
    obtain ⟨g'', hscan', hholds'⟩ := ih hholds hdistinct hstillFresh hspelleds hknows hvalueds
    refine ⟨g'', ?_, ?_⟩
    · rw [List.flatMap_cons, List.append_assoc, hscan, hscan']
    · rw [List.map_cons, List.reverse_cons, List.append_assoc]
      exact hholds'

/-! ## What the scopes know -/

theorem knows_shared : ∀ k ∈ sharedKinds, Scope.top.Knows k := by
  unfold Scope.Knows
  decide

/-- A command knows the options that it is said to take. -/
theorem knows_taken (name : CommandName) :
    ∀ k ∈ sharedKinds ++ name.ownKinds, (Scope.command name).Knows k := by
  unfold Scope.Knows
  cases name <;> decide

namespace Request

variable {r : Request} {p : Parameter} {v : String}

theorem has_iff {s : Switch} : r.has s = true ↔ .switch s ∈ r.settings := by
  rw [has, List.contains_iff_mem]

theorem valueFor?_eq_some_iff {x : Setting} :
    x.valueFor? p = some v ↔ x = .parameter p v := by
  cases x with
  | switch s => exact iff_of_false nofun nofun
  | parameter q value => simp [Setting.valueFor?]

/-- The settings of a parameter are one at most. -/
theorem eq_of_mem_settings {v w : String} (hv : .parameter p v ∈ r.settings)
    (hw : .parameter p w ∈ r.settings) : v = w := by
  have hsame := List.inj_on_of_nodup_map r.distinct hv hw rfl
  exact (Setting.parameter.inj hsame).2

/-- A parameter has the one value that a setting gives it. -/
theorem value?_eq_some_iff : r.value? p = some v ↔ .parameter p v ∈ r.settings := by
  constructor
  · intro h
    obtain ⟨x, hx, hvalue⟩ := List.exists_of_findSome?_eq_some h
    exact valueFor?_eq_some_iff.mp hvalue ▸ hx
  · intro h
    cases hvalue : r.value? p with
    | none =>
      have hnone := List.findSome?_eq_none_iff.mp hvalue _ h
      rw [valueFor?_eq_some_iff.mpr rfl] at hnone
      cases hnone
    | some w =>
      obtain ⟨x, hx, hw⟩ := List.exists_of_findSome?_eq_some hvalue
      rw [valueFor?_eq_some_iff.mp hw] at hx
      rw [eq_of_mem_settings h hx]

/-! ## Both scopes together -/

/-- The settings of the request are divided between the two scopes.  Only shared ones stand in the
first. -/
structure Divides (r : Request) (top sub : List Setting) : Prop where
  all : (top ++ sub).Perm r.settings
  shared : ∀ x ∈ top, x.kind ∈ sharedKinds

variable {top sub : List Setting} {g h : Given}

theorem Divides.mem_iff (hd : r.Divides top sub) {x : Setting} :
    x ∈ r.settings ↔ x ∈ top ∨ x ∈ sub := by
  rw [← hd.all.mem_iff, List.mem_append]

theorem Divides.has_eq (hd : r.Divides top sub) (hg : g.Settled top) (hh : h.Settled sub)
    (s : Switch) : (g.switches.contains s || h.switches.contains s) = r.has s := by
  rw [Bool.eq_iff_iff, Bool.or_eq_true, List.contains_iff_mem, List.contains_iff_mem, hg.switch,
    hh.switch, has_iff, hd.mem_iff]

/-- A value that is found on either side of the command is that of the request. -/
theorem Divides.value?_eq (hd : r.Divides top sub) (hg : g.Settled top) (hh : h.Settled sub)
    (p : Parameter) : (h.values.lookup p).or (g.values.lookup p) = r.value? p := by
  ext v
  rw [Option.or_eq_some_iff, hg.value, hh.value, value?_eq_some_iff, hd.mem_iff]
  constructor
  · rintro (hsub | ⟨-, htop⟩)
    · exact .inr hsub
    · exact .inl htop
  · rintro (htop | hsub)
    · cases hlookup : h.values.lookup p with
      | none => exact .inr ⟨rfl, htop⟩
      | some w =>
        have hw := (hh.value p w).mp hlookup
        have hsame : v = w := eq_of_mem_settings (hd.mem_iff.mpr (.inl htop))
          (hd.mem_iff.mpr (.inr hw))
        exact .inl (hsame ▸ hw)
    · exact .inl hsub

/-- An option of the command alone stands in its scope. -/
theorem Divides.own_switch_eq (hd : r.Divides top sub) (hg : g.Settled top) (hh : h.Settled sub)
    {s : Switch} (hs : .switch s ∉ sharedKinds) : h.switches.contains s = r.has s := by
  have hnot : g.switches.contains s = false := by
    rw [Bool.eq_false_iff, Ne, List.contains_iff_mem, hg.switch]
    exact fun hmem => hs (hd.shared _ hmem)
  rw [← hd.has_eq hg hh, hnot, Bool.false_or]

/-- A parameter of a command is found only after its name. -/
theorem Divides.own_value_eq (hd : r.Divides top sub) (hg : g.Settled top) (hh : h.Settled sub)
    {p : Parameter} (hp : .parameter p ∉ sharedKinds) : h.values.lookup p = r.value? p := by
  have hnone : g.values.lookup p = none :=
    hg.lookup_eq_none fun v hmem => hp (hd.shared _ hmem)
  rw [← hd.value?_eq hg hh, hnone, Option.or_none]

theorem Divides.report_eq (hd : r.Divides top sub) (hg : g.Settled top) (hh : h.Settled sub)
    (version : Option String) : h.report version = r.report version := by
  rw [Given.report, report, hd.own_value_eq hg hh (by decide), hd.own_value_eq hg hh (by decide)]

/-- A format is one of the two that there are. -/
theorem format_eq (r : Request) :
    (((r.value? .format).bind fun f => formats.lookup f).getD .text) =
      if r.value? .format = some "json" then .json else .text := by
  cases hvalue : r.value? .format with
  | none => rfl
  | some v =>
    have hvalued : v = "text" ∨ v = "json" := r.valued _ (value?_eq_some_iff.mp hvalue)
    rcases hvalued with rfl | rfl
    · decide
    · decide

/-- What is found on both sides of the command makes up the command line of the request. -/
theorem Divides.join_eq (hd : r.Divides top sub) (hg : g.Settled top) (hh : h.Settled sub)
    (version : Option String) : join g h r.name version = r.commandLine version := by
  have hcommand : h.command r.name version = (r.commandLine version).command := by
    rw [commandLine]
    cases r.name with
    | check =>
      simp only [Given.command, hd.report_eq hg hh, hd.own_switch_eq hg hh (s := .fix) (by decide),
        hd.own_switch_eq hg hh (s := .skipBaselineUpdate) (by decide),
        hd.own_switch_eq hg hh (s := .failOnImprovement) (by decide),
        hd.own_switch_eq hg hh (s := .strict) (by decide),
        hd.own_value_eq hg hh (p := .out) (by decide)]
    | init => simp only [Given.command, hd.report_eq hg hh]
    | update => simp only [Given.command, hd.report_eq hg hh]
    | clear => rfl
    | status =>
      simp only [Given.command, hd.own_value_eq hg hh (p := .format) (by decide), r.format_eq]
  rw [join, hd.has_eq hg hh, hd.has_eq hg hh, hd.value?_eq hg hh, hd.value?_eq hg hh, hcommand]
  rfl

end Request

/-! ## Arrangements -/

/-- A scope that awaits no value ends at the name of a command. -/
theorem scan_command {g : Given} (hg : g.awaits = false) (name : CommandName) (as : List String) :
    scan .top g (name.word :: as) = .ok (g, some (name, as)) := by
  have hhelp : name.word ≠ "help" := by cases name <;> decide
  have hnamed : CommandName.named.lookup name.word = some name := by cases name <;> decide
  simp [scan, hg, hhelp, hnamed]

theorem Given.Settled.congr {g : Given} {done done' : List Setting} (h : g.Settled done)
    (hmem : ∀ x, x ∈ done ↔ x ∈ done') : g.Settled done' where
  pending := h.pending
  switch s := by rw [h.switch, hmem]
  value p v := by rw [h.value, hmem]

/-- A scope in which each option is spelled out is read to its end, and settles with these
options. -/
theorem scan_scope {scope : Scope} {xs : List (Setting × List String)}
    (hdistinct : (xs.map fun x => x.1.kind).Nodup) (hspelled : ∀ x ∈ xs, Spelled x.1 x.2)
    (hknows : ∀ x ∈ xs, scope.Knows x.1.kind) (hvalued : ∀ x ∈ xs, x.1.WellValued)
    (rest : List String) :
    ∃ g g', scan scope {} (xs.flatMap Prod.snd ++ rest) = scan scope g rest ∧ g.awaits = false ∧
      g.settle = .ok g' ∧ g'.Settled (xs.map Prod.fst) := by
  obtain ⟨g, hscan, hholds⟩ := scan_all Given.settled_empty.holds hdistinct
    (fun _ _ => List.not_mem_nil) hspelled hknows hvalued rest
  obtain ⟨g', hsettle, hsettled⟩ := hholds.settles
  exact ⟨g, g', hscan, hholds.complete, hsettle, hsettled.congr fun x => by simp⟩

/-- Every arrangement of a request is read as one command line.  It has the switches and the values
that the request has, and no others. -/
theorem parse_arranged (r : Request) (version : Option String) :
    (∀ args, r.Arranges args → parse args version = .ok (r.commandLine version)) ∧
    (∀ s, r.has s = true ↔ .switch s ∈ r.settings) ∧
    ∀ p v, r.value? p = some v ↔ .parameter p v ∈ r.settings := by
  refine ⟨?_, fun s => Request.has_iff, fun p v => Request.value?_eq_some_iff⟩
  rintro args @⟨before, after, hperm, hspelled, hshared⟩
  have hdivides : r.Divides (before.map Prod.fst) (after.map Prod.fst) := by
    refine ⟨by rwa [List.map_append] at hperm, fun x hx => ?_⟩
    obtain ⟨y, hy, rfl⟩ := List.mem_map.mp hx
    exact hshared y hy
  have hmem : ∀ x ∈ before ++ after, x.1 ∈ r.settings := fun x hx =>
    hperm.mem_iff.mp (List.mem_map_of_mem hx)
  have hdistinct : ((before ++ after).map fun x => x.1.kind).Nodup := by
    have hkinds := (hperm.map Setting.kind).nodup_iff.mpr r.distinct
    rwa [List.map_map] at hkinds
  rw [List.map_append] at hdistinct
  obtain ⟨hdistinctBefore, hdistinctAfter, -⟩ := List.nodup_append.mp hdistinct
  obtain ⟨hspelledBefore, hspelledAfter⟩ := List.forall_mem_append.mp hspelled
  obtain ⟨hmemBefore, hmemAfter⟩ := List.forall_mem_append.mp hmem
  obtain ⟨top, top', hscanTop, hcomplete, hsettleTop, htop⟩ := scan_scope hdistinctBefore
    hspelledBefore (fun x hx => knows_shared _ (hshared x hx))
    (fun x hx => r.valued _ (hmemBefore x hx)) (r.name.word :: after.flatMap Prod.snd)
  obtain ⟨sub, sub', hscanSub, -, hsettleSub, hsub⟩ := scan_scope hdistinctAfter hspelledAfter
    (fun x hx => knows_taken r.name _ (r.taken _ (hmemAfter x hx)))
    (fun x hx => r.valued _ (hmemAfter x hx)) []
  have hend : scan (.command r.name) {} (after.flatMap Prod.snd) = .ok (sub, none) := by
    rw [List.append_nil] at hscanSub
    exact hscanSub
  simp only [parse, hscanTop, scan_command hcomplete, hend, bind, Except.bind, hsettleSub,
    hsettleTop, hdivides.join_eq htop hsub, pure, Except.pure]

/-- The values are the names of commands and options, and one is a dash. -/
def wordyRequest : Request where
  name := .check
  settings := [.parameter .config "status", .parameter .input "help", .switch .strict,
    .parameter .out "-", .switch .verbose]
  distinct := by decide
  taken := by decide
  valued := by
    repeat rw [List.forall_mem_cons]
    exact ⟨.inr ⟨'s', _, rfl, by decide⟩, .inr ⟨'h', _, rfl, by decide⟩, trivial, .inl rfl,
      trivial, List.forall_mem_nil _⟩

/-- Two ways to write it, with the version from the environment. -/
theorem parse_arranged_wordy :
    let c : CommandLine := {
      verbose := true
      config := some "status"
      command := .check {
        input := some "help", linterVersion := some "1.9", strict := true, out := some "-" } }
    wordyRequest.Arranges
        ["--config", "status", "-v", "check", "--strict", "--out=-", "--input", "help"] ∧
      wordyRequest.Arranges
        ["check", "--input=help", "--verbose", "--out", "-", "--config=status", "--strict"] ∧
      parse ["--config", "status", "-v", "check", "--strict", "--out=-", "--input", "help"]
        (some "1.9") = .ok c ∧
      parse ["check", "--input=help", "--verbose", "--out", "-", "--config=status", "--strict"]
        (some "1.9") = .ok c := by
  intro c
  have hlong : ∀ {s : Switch} {w : String}, "--" ++ s.word = w → Spelled (.switch s) [w] := by
    rintro s w rfl
    exact .long s
  have hapart : ∀ {p : Parameter} {v w : String}, "--" ++ p.word = w →
      Spelled (.parameter p v) [w, v] := by
    rintro p v w rfl
    exact .apart p v
  have hattached : ∀ {p : Parameter} {v w : String}, "--" ++ p.word ++ "=" ++ v = w →
      Spelled (.parameter p v) [w] := by
    rintro p v w rfl
    exact .attached p v
  have hfirst : wordyRequest.Arranges
      ["--config", "status", "-v", "check", "--strict", "--out=-", "--input", "help"] := by
    refine @Request.Arranges.mk wordyRequest
      [(.parameter .config "status", ["--config", "status"]), (.switch .verbose, ["-v"])]
      [(.switch .strict, ["--strict"]), (.parameter .out "-", ["--out=-"]),
        (.parameter .input "help", ["--input", "help"])] (by decide) ?_ (by decide)
    rw [List.cons_append, List.cons_append, List.nil_append]
    repeat rw [List.forall_mem_cons]
    exact ⟨hapart (by decide), .letter, hlong (by decide), hattached (by decide),
      hapart (by decide), List.forall_mem_nil _⟩
  have hsecond : wordyRequest.Arranges
      ["check", "--input=help", "--verbose", "--out", "-", "--config=status", "--strict"] := by
    refine @Request.Arranges.mk wordyRequest []
      [(.parameter .input "help", ["--input=help"]), (.switch .verbose, ["--verbose"]),
        (.parameter .out "-", ["--out", "-"]), (.parameter .config "status", ["--config=status"]),
        (.switch .strict, ["--strict"])] (by decide) ?_ (by decide)
    rw [List.nil_append]
    repeat rw [List.forall_mem_cons]
    exact ⟨hattached (by decide), hlong (by decide), hapart (by decide), hattached (by decide),
      hlong (by decide), List.forall_mem_nil _⟩
  obtain ⟨hparse, -, -⟩ := parse_arranged wordyRequest (some "1.9")
  exact ⟨hfirst, hsecond, hparse _ hfirst, hparse _ hsecond⟩

end LintRatchet.CommandLine
