import Vitals.Program
import Vitals.Proofs.Command.Grammar

/-!
# The flags of serving before and after the subcommand

The flags of serving can be said without a subcommand, behind it, or some before and some behind
it. Without a subcommand and behind it they say the same, but of flags on both sides only those
behind the subcommand are heeded (`CommandLine.parse_split`) ; what stands before it is read and
then left out of account. What is heeded is what the settings are loaded from (`settings?_eq`).
-/

namespace Vitals.Command

theorem readable_top : topGrammar.Readable serveFlags where
  named := by decide
  lettered := by
    have hconfig : topGrammar.lettered? 'c' = some ⟨"config", some 'c', .value .path⟩ := by decide
    have hlisten : topGrammar.lettered? 'l' = some ⟨"listen", some 'l', .value .text⟩ := by decide
    simp [serveFlags, hconfig, hlisten]
  valued := by simp [serveFlags]
  significant := by decide
  dashed := by decide

theorem readable_serve : serveGrammar.Readable serveFlags where
  named := readable_top.named
  lettered := readable_top.lettered
  valued := readable_top.valued
  significant := readable_top.significant
  dashed := by decide

theorem admits_top_iff {written : List (Written serveFlags)} :
    topGrammar.Admits written ↔ serveGrammar.Admits written :=
  ⟨fun h => ⟨h.legible, h.checked, h.distinct, h.conflicts, h.needs⟩,
    fun h => ⟨h.legible, h.checked, h.distinct, h.conflicts, h.needs⟩⟩

/-! ## What is said -/

namespace ServeArguments

/-- What some written flags say. -/
def ofWritten (written : List (Written serveFlags)) : ServeArguments :=
  .ofReading (.ofWritten written)

/-- Which flags are said, in the order of the flags. -/
def present (arguments : ServeArguments) : List Bool :=
  [arguments.config.isSome, arguments.registryFile.isSome, arguments.registryUrl.isSome,
    arguments.listen.isSome, arguments.scrapeInterval.isSome, arguments.refreshInterval.isSome,
    arguments.callTimeout.isSome, arguments.window.isSome]

theorem present_ofReading {reading : Reading}
    (hwindow : ∀ value, reading.value? "window" = some value → (countOf? value).isSome) :
    (ofReading reading).present = serveFlags.map (reading.has ·.name) := by
  have hcount : ((reading.value? "window").bind countOf?).isSome = reading.has "window" := by
    rw [Reading.has]
    cases hvalue : reading.value? "window" with
    | none => rfl
    | some value => exact hwindow value hvalue
  simp [present, ofReading, serveFlags, Reading.has, hcount]

theorem isSome_countOf? {written : List (Written serveFlags)} (h : ∀ w ∈ written, w.Checked)
    {value : String} (hvalue : (Reading.ofWritten written).value? "window" = some value) :
    (countOf? value).isSome := by
  obtain ⟨⟨name, value⟩, hfind, rfl⟩ := Option.map_eq_some_iff.1 hvalue
  obtain ⟨w, hw, hentry⟩ := List.mem_map.1 (List.mem_of_find?_eq_some hfind)
  obtain ⟨hname, rfl⟩ := Prod.mk.inj hentry
  obtain rfl : name = "window" := by simpa using List.find?_some hfind
  have hflag := readable_top.named w.flag w.mem
  rw [hname] at hflag
  have hcount : topGrammar.named? "window" = some ⟨"window", none, .value .count⟩ := by decide
  have hrole : w.flag.role = .value .count := by
    rw [← Option.some.inj (hcount.symm.trans hflag)]
  have hcheck := h w hw .count hrole
  simp only [Form.check] at hcheck
  split_ifs at hcheck with hsome
  exact hsome

/-- Which flags have been said can be told from the arguments. -/
theorem mem_of_ofWritten_eq {written others : List (Written serveFlags)}
    (hwritten : ∀ w ∈ written, w.Checked) (hothers : ∀ w ∈ others, w.Checked)
    (h : ofWritten written = ofWritten others) :
    ∀ w ∈ written, w.flag.name ∈ others.map (·.flag.name) := by
  have hpresent := congrArg present h
  simp only [ofWritten] at hpresent
  rw [present_ofReading fun _ => isSome_countOf? hwritten,
    present_ofReading fun _ => isSome_countOf? hothers, List.map_inj_left] at hpresent
  intro w hw
  have hhas : (Reading.ofWritten written).has w.flag.name = true := by
    rw [Reading.has_iff, Reading.map_fst_ofWritten]
    exact List.mem_map_of_mem hw
  rw [hpresent w.flag w.mem, Reading.has_iff, Reading.map_fst_ofWritten] at hhas
  exact hhas

end ServeArguments

/-- What a command line says to the settings, if it asks for a service : the path of a file and
what is said over every other source. -/
def CommandLine.said? (line : CommandLine) : Option (Option String × Overrides) :=
  match line.task with
  | .serve arguments => some (arguments.config, arguments.overrides)
  | .query _ => none

/-- The settings are loaded from what a command line says to them and from nothing else of it. -/
theorem settings?_eq (surroundings : Surroundings) {words : List String} {line : CommandLine}
    (h : CommandLine.parse words = .ok line) :
    surroundings.settings? words = line.said?.bind fun (config, overrides) =>
      (Settings.load (config.map surroundings.settingsFile) surroundings.environment
        overrides).toOption := by
  simp only [Surroundings.settings?, h, CommandLine.said?]
  cases line.task with
  | query arguments => rfl
  | serve arguments =>
    simp only [loadSettings, Option.bind_some]
    cases Settings.load (arguments.config.map surroundings.settingsFile) surroundings.environment
      arguments.overrides <;> rfl

namespace CommandLine

theorem said?_inj {arguments others : ServeArguments} {line other : CommandLine}
    (hline : line.task = .serve arguments) (hother : other.task = .serve others) :
    line.said? = other.said? ↔ arguments = others := by
  rw [said?, said?, hline, hother]
  constructor
  · intro h
    cases arguments
    cases others
    simp_all [ServeArguments.overrides]
  · rintro rfl
    rfl

/-! ## Command lines -/

/-- Reads a subcommand, if there is one. -/
def readNext : Option (String × List String) → Except UsageFault (Option Subcommand)
  | none => .ok none
  | some (name, words) => (readSubcommand name words).map some

theorem parse_eq_ok_iff {words : List String} {line : CommandLine} :
    parse words = .ok line ↔ ∃ next settled,
      (∃ last, topGrammar.readWords false {} words = .ok (last, next) ∧
        topGrammar.finish last = .ok settled) ∧
      ∃ subcommand, readNext next = .ok subcommand ∧ line = ⟨.ofReading settled, subcommand⟩ := by
  have hparse : parse words = (topGrammar.readWords false {} words).bind fun read =>
      (readNext read.2).bind fun subcommand => (topGrammar.finish read.1).bind fun settled =>
        .ok ⟨.ofReading settled, subcommand⟩ := by
    unfold parse
    refine bind_congr fun read => ?_
    obtain ⟨reading, next⟩ := read
    cases next <;> rfl
  rw [hparse]
  cases topGrammar.readWords false {} words with
  | error fault => simp [Except.bind]
  | ok result =>
    obtain ⟨reading, next⟩ := result
    cases hnext : readNext next with
    | error fault => simp [Except.bind, hnext]
    | ok subcommand =>
      cases hfinish : topGrammar.finish reading <;> simp [Except.bind, hnext, hfinish, eq_comm]

/-- The flags behind the subcommand are a level of their own. -/
theorem readSubcommand_serve_iff (written : List (Written serveFlags)) {subcommand : Subcommand} :
    readSubcommand "serve" (written.flatMap Written.words) = .ok subcommand ↔
      serveGrammar.Admits written ∧ subcommand = .serve (.ofWritten written) := by
  have hread : readSubcommand "serve" (written.flatMap Written.words) = .ok subcommand ↔
      ∃ next settled,
        (∃ last,
          serveGrammar.readWords false {} (written.flatMap Written.words) = .ok (last, next) ∧
          serveGrammar.finish last = .ok settled) ∧ subcommand = .serve (.ofReading settled) := by
    rw [readSubcommand, if_pos rfl, readLevel]
    cases serveGrammar.readWords false {} (written.flatMap Written.words) with
    | error fault => simp [bind, Except.bind]
    | ok result =>
      obtain ⟨reading, next⟩ := result
      cases hfinish : serveGrammar.finish reading <;>
        simp [bind, Except.bind, pure, Except.pure, hfinish, eq_comm]
  simp only [hread, readable_serve.whole_level_iff]
  constructor
  · rintro ⟨_, _, ⟨h, rfl, rfl⟩, rfl⟩
    exact ⟨h, rfl⟩
  · rintro ⟨h, rfl⟩
    exact ⟨none, _, ⟨h, rfl, rfl⟩, rfl⟩

theorem parse_written_iff (written : List (Written serveFlags)) {line : CommandLine} :
    parse (written.flatMap Written.words) = .ok line ↔
      serveGrammar.Admits written ∧ line = { top := .ofWritten written } := by
  simp only [parse_eq_ok_iff, readable_top.whole_level_iff, admits_top_iff]
  constructor
  · rintro ⟨_, _, ⟨h, rfl, rfl⟩, _, hnext, rfl⟩
    cases hnext
    exact ⟨h, rfl⟩
  · rintro ⟨h, rfl⟩
    exact ⟨none, _, ⟨h, rfl, rfl⟩, none, rfl, rfl⟩

/-- The flags before and behind the subcommand are two levels, each of which has to be one. -/
theorem parse_serve_iff (first second : List (Written serveFlags)) {line : CommandLine} :
    parse (first.flatMap Written.words ++ "serve" :: second.flatMap Written.words) = .ok line ↔
      serveGrammar.Admits first ∧ serveGrammar.Admits second ∧
        line = ⟨.ofWritten first, some (.serve (.ofWritten second))⟩ := by
  have hend (reading : Reading) (hready : reading.awaits = false) :
      topGrammar.readWords false reading ("serve" :: second.flatMap Written.words) =
        .ok (reading, some ("serve", second.flatMap Written.words)) := by
    have hserve : topGrammar.isSubcommand "serve" = true := by decide
    rw [Grammar.readWords]
    simp only [Bool.false_eq_true, if_false, hready, hserve, Bool.not_false, Bool.and_self, if_true]
    exact if_neg (by decide)
  have hnext (subcommand : Option Subcommand) :
      readNext (some ("serve", second.flatMap Written.words)) = .ok subcommand ↔
        serveGrammar.Admits second ∧ subcommand = some (.serve (.ofWritten second)) := by
    have hread : readNext (some ("serve", second.flatMap Written.words)) = .ok subcommand ↔
        ∃ read, readSubcommand "serve" (second.flatMap Written.words) = .ok read ∧
          subcommand = some read := by
      rw [readNext]
      cases readSubcommand "serve" (second.flatMap Written.words) <;> simp [Except.map, eq_comm]
    simp only [hread, readSubcommand_serve_iff]
    constructor
    · rintro ⟨_, ⟨hsecond, rfl⟩, rfl⟩
      exact ⟨hsecond, rfl⟩
    · rintro ⟨hsecond, rfl⟩
      exact ⟨_, ⟨hsecond, rfl⟩, rfl⟩
  simp only [parse_eq_ok_iff, readable_top.level_iff hend, admits_top_iff]
  constructor
  · rintro ⟨_, _, ⟨hfirst, rfl, rfl⟩, subcommand, hread, rfl⟩
    obtain ⟨hsecond, rfl⟩ := (hnext subcommand).1 hread
    exact ⟨hfirst, hsecond, rfl⟩
  · rintro ⟨hfirst, hsecond, rfl⟩
    exact ⟨_, _, ⟨hfirst, rfl, rfl⟩, _, (hnext _).2 ⟨hsecond, rfl⟩, rfl⟩

/-- Where some flags are a command line, they are one behind the subcommand too and say the same to
the settings. If some of them stand before the subcommand and the others behind it, they are a
command line still, but it says what the others say alone : it says the same only if none stand
before. -/
theorem parse_split (first second : List (Written serveFlags)) {line : CommandLine}
    (h : parse ((first ++ second).flatMap Written.words) = .ok line) :
    line.said?.isSome = true ∧
      (∃ whole, parse ("serve" :: (first ++ second).flatMap Written.words) = .ok whole ∧
        whole.said? = line.said?) ∧
      ∃ split alone,
        parse (first.flatMap Written.words ++ "serve" :: second.flatMap Written.words) =
          .ok split ∧
        parse (second.flatMap Written.words) = .ok alone ∧ split.said? = alone.said? ∧
        (split.said? = line.said? ↔ first = []) := by
  obtain ⟨hadmits, rfl⟩ := (parse_written_iff _).1 h
  have hfirst : serveGrammar.Admits first := hadmits.sublist rfl (List.sublist_append_left ..)
  have hsecond : serveGrammar.Admits second := hadmits.sublist rfl (List.sublist_append_right ..)
  have hnone : serveGrammar.Admits ([] : List (Written serveFlags)) :=
    hadmits.sublist rfl (List.nil_sublist _)
  refine ⟨rfl, ⟨_, (parse_serve_iff [] _).2 ⟨hnone, hadmits, rfl⟩, rfl⟩, _, _,
    (parse_serve_iff first second).2 ⟨hfirst, hsecond, rfl⟩,
    (parse_written_iff second).2 ⟨hsecond, rfl⟩, rfl, ?_⟩
  rw [said?_inj rfl rfl]
  constructor
  · intro hsame
    -- a flag before the subcommand would have to stand behind it too
    have hmem := ServeArguments.mem_of_ofWritten_eq hadmits.checked hsecond.checked hsame.symm
    refine List.eq_nil_iff_forall_not_mem.2 fun w hw => ?_
    have hdistinct := hadmits.distinct
    rw [List.map_append, List.nodup_append] at hdistinct
    exact hdistinct.2.2 _ (List.mem_map_of_mem hw) _ (hmem w (List.mem_append_left _ hw)) rfl
  · rintro rfl
    rfl

/-- A window before the subcommand, by name, and an address behind it, by letter. -/
theorem parse_split_window :
    let line : CommandLine := { top := { window := some 5, listen := some "host:1" } }
    parse ["--window", "5", "-lhost:1"] = .ok line ∧
      ∃ split alone, parse ["--window", "5", "serve", "-lhost:1"] = .ok split ∧
        parse ["-lhost:1"] = .ok alone ∧ split.said? = alone.said? ∧ split.said? ≠ line.said? := by
  intro line
  have hline : parse ["--window", "5", "-lhost:1"] = .ok line := rfl
  let window : Written serveFlags :=
    ⟨⟨"window", none, .value .count⟩, "5", ["--window", "5"], by decide, .apart .name⟩
  let listen : Written serveFlags :=
    ⟨⟨"listen", some 'l', .value .text⟩, "host:1", ["-lhost:1"], by decide,
      .joined <| @Flag.Opens.letterJoined _ 'l' 'h' _ rfl "host:1" rfl (by decide)⟩
  obtain ⟨-, -, split, alone, hsplit, halone, hsame, hdiffers⟩ :=
    parse_split [window] [listen] hline
  exact ⟨hline, split, alone, hsplit, halone, hsame, fun h => List.cons_ne_nil _ _ (hdiffers.1 h)⟩

/-- A window that is said without a subcommand is not said before one. -/
theorem parse_windowBefore : ∃ line split, parse ["--window", "5"] = .ok line ∧
    parse ["--window", "5", "serve"] = .ok split ∧ split.said? ≠ line.said? := by
  refine ⟨{ top := { window := some 5 } },
    { top := { window := some 5 }, subcommand := some (.serve {}) }, rfl, rfl, ?_⟩
  decide

end CommandLine

end Vitals.Command
