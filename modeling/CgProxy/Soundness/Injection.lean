import CgProxy.Model.Commands

/-! # What a program name does to a command line

Nothing is quoted when a command line is made, and nothing is checked before. A string arrives as the
argument of its command exactly if it is plain to the shell.
-/

namespace CgProxy

open Posix Posix.Shell

/-- One command line. -/
theorem ToolCall.passedOn_iff (cmd : ToolCall) : cmd.PassedOn ↔ Plain cmd.given := by
  have fixed : ∀ tool : Tool, (∀ w ∈ tool.words, Plain w) ∧
      tool.words.head?.any (fun a => isCommand (unquoted a)) = true ∧ tool.front = tool.words.flatMap (· ++ [' ']) := by
    intro tool
    cases tool <;> decide
  obtain ⟨plain, command, front⟩ := fixed cmd.tool
  have first : (cmd.tool.words ++ [cmd.given]).head? = cmd.tool.words.head? := by
    cases cmd.tool <;> rfl
  rw [PassedOn, line, front, ← intercalate_concat, argumentVector_cString_iff, first, and_iff_left command,
    List.forall_mem_append, and_iff_right plain, List.forall_mem_singleton]

/-! ## The names of a configuration -/

/-- All strings that the name leads to are plain: the name and what `which` prints for it, unless it is
taken as it stands, and the path that the list is left with. -/
structure Clear (host : Host) (name : Str) : Prop where
  searched : ¬ (name.head? = some '/' ∧ host.fileExist name = true) →
    Plain name ∧ (host.bashWhich name ≠ [] → Plain (host.bashWhich name))
  found : getRealExistPath host name ≠ [] → Plain (getRealExistPath host name)

section Names

variable {host : Host} {name : Str} {v : List Str}

theorem resolveCommands_passedOn_iff :
    (∀ cmd ∈ resolveCommands host name, cmd.PassedOn) ↔
      (¬ (name.head? = some '/' ∧ host.fileExist name = true) →
        Plain name ∧ (host.bashWhich name ≠ [] → Plain (host.bashWhich name))) := by
  rw [resolveCommands]
  split
  · next taken => simp [taken]
  · next searched =>
    rw [List.forall_mem_cons, ToolCall.passedOn_iff]
    simp only [searched, not_false_iff, true_imp_iff]
    refine and_congr_right fun _ => ?_
    split
    · next missing => simp [missing]
    · next present => rw [List.forall_mem_singleton, ToolCall.passedOn_iff, ToolCall.given, imp_iff_right present]

theorem runningCommands_passedOn_iff :
    (∀ cmd ∈ runningCommands (Config.toRealProgramPath host v), cmd.PassedOn) ↔
      ∀ name ∈ v, getRealExistPath host name ≠ [] → Plain (getRealExistPath host name) := by
  rw [runningCommands, List.forall_mem_map, Config.toRealProgramPath, List.forall_mem_filter, List.forall_mem_map]
  simp only [decide_eq_true_eq, ToolCall.passedOn_iff]

/-- The commands for a list of names, when it is loaded and when running programs are looked for. -/
theorem list_passedOn_iff :
    (∀ cmd ∈ v.flatMap (resolveCommands host) ++ runningCommands (Config.toRealProgramPath host v), cmd.PassedOn) ↔
      ∀ name ∈ v, Clear host name := by
  rw [List.forall_mem_append, runningCommands_passedOn_iff]
  constructor
  · rintro ⟨load, running⟩ name member
    refine ⟨resolveCommands_passedOn_iff.mp fun cmd called => ?_, running name member⟩
    exact load cmd (List.mem_flatMap.mpr ⟨name, member, called⟩)
  · intro clear
    refine ⟨fun cmd called => ?_, fun name member => (clear name member).found⟩
    obtain ⟨name, member, called⟩ := List.mem_flatMap.mp called
    exact resolveCommands_passedOn_iff.mpr (clear name member).searched cmd called

end Names

/-- The program lists after a load. -/
theorem programs_of_load {host : Host} {before c : Config} {js : Str} {j : Json} (parsed : host.parse js = .ok j)
    (load : Config.loadFromJsonStr host before js = (.ok Status.success, c)) :
    c.programNoproxy = Config.toRealProgramPath host (Config.assign j before).programNoproxy ∧
      c.programProxy = Config.toRealProgramPath host (Config.assign j before).programProxy := by
  obtain ⟨j', again, -, rfl⟩ := Config.exists_of_load load
  rw [parsed] at again
  cases again
  exact ⟨rfl, rfl⟩

/-- All command lines for an accepted document are read as intended exactly if all its names are clear. -/
theorem commands_passedOn_iff (host : Host) (before c : Config) (js : Str) (j : Json)
    (parsed : host.parse js = .ok j) (load : Config.loadFromJsonStr host before js = (.ok Status.success, c)) :
    (∀ cmd ∈ loadCommands host (Config.assign j before) ++
        (runningCommands c.programNoproxy ++ runningCommands c.programProxy), cmd.PassedOn) ↔
      ∀ name ∈ (Config.assign j before).programNoproxy ++ (Config.assign j before).programProxy,
        Clear host name := by
  obtain ⟨noproxy, proxy⟩ := programs_of_load parsed load
  have regroup {first second third fourth : List ToolCall} :
      (∀ cmd ∈ (first ++ second) ++ (third ++ fourth), cmd.PassedOn) ↔
        (∀ cmd ∈ first ++ third, cmd.PassedOn) ∧ ∀ cmd ∈ second ++ fourth, cmd.PassedOn := by
    simp only [List.forall_mem_append]
    tauto
  rw [loadCommands, noproxy, proxy, regroup, list_passedOn_iff, list_passedOn_iff, ← List.forall_mem_append]

/-- An ordinary path. -/
theorem commands_passedOn_path :
    let j := Config.listsDocument [] ["/usr/bin/a".toList] [] []
    ∀ cmd ∈ loadCommands (Config.singleHost [] j) (Config.assign j {}) ++
      (runningCommands [] ++ runningCommands ["/usr/bin/a".toList]), cmd.PassedOn := by
  intro j
  have parsed := Config.parse_singleHost [] j
  have load : Config.loadFromJsonStr (Config.singleHost [] j) {} [] =
      (.ok Status.success, Config.ofLists [] ["/usr/bin/a".toList] [] []) :=
    Config.loadFromJsonStr_listsDocument parsed (fun _ => rfl) (by decide) (by decide) (by decide)
  have taken : getRealExistPath (Config.singleHost [] j) "/usr/bin/a".toList = "/usr/bin/a".toList :=
    if_pos ⟨rfl, rfl⟩
  have clear : Clear (Config.singleHost [] j) "/usr/bin/a".toList := by
    refine ⟨fun searched => absurd ⟨rfl, rfl⟩ searched, fun _ => ?_⟩
    rw [taken]
    decide
  refine (commands_passedOn_iff _ _ _ _ _ parsed load).mpr ?_
  rw [Config.assign_listsDocument]
  exact List.forall_mem_singleton.mpr clear

/-- A name with another command in it goes to the shell as soon as a document with it is accepted. -/
theorem commands_passedOn_semicolon :
    let j := Config.listsDocument [] ["x;reboot".toList] [] []
    (Config.loadFromJsonStr (Config.singleHost [] j) {} []).1 = .ok Status.success ∧
      ⟨.which, "x;reboot".toList⟩ ∈ loadCommands (Config.singleHost [] j) (Config.assign j {}) ∧
      ¬ (⟨.which, "x;reboot".toList⟩ : ToolCall).PassedOn := by
  intro j
  have parsed := Config.parse_singleHost [] j
  have valid : Config.validateItems j.items = .ok true :=
    Config.validateItems_listsDocument (fun _ member => by cases member) (fun _ member => by cases member)
  refine ⟨?_, ?_, by rw [ToolCall.passedOn_iff]; decide⟩
  · simp only [Config.loadFromJsonStr, Config.validateJsonStr, parsed, bind, Except.bind, valid]
  · rw [Config.assign_listsDocument]
    decide

end CgProxy
