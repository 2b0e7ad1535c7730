import CgProxy.Soundness.Generation
import CgProxy.Soundness.Priority

/-! # What loading does to a configuration

A load either fails and changes nothing or ends with both reserved slices in front of their lists.
From this come the guarantees about messages that fail and about the slices that the commands attach
to. A loaded configuration is also a fixed point of saving and loading: the paths it holds resolve
to themselves, the merge finds the slices where it puts them, and every number fits the type it is
read with. The test client puts the saved text into its message as a string, which the daemon then
validates as a document, and so it is never accepted.
-/

namespace CgProxy

open Script GluedJoin

/-! ## Failed messages -/

/-- A message that fails leaves the configuration, the environment and the rules alone. -/
theorem failed_message_changes_nothing (host : Host) (d : Daemon) (msg : Str)
    (failed : (d.handleMsg host msg).1 ≠ Status.success) :
    (d.handleMsg host msg).2.config = d.config ∧ (d.handleMsg host msg).2.env = d.env ∧
      (d.handleMsg host msg).2.kernel.tables = d.kernel.tables := by
  rcases handleMsg_cases host d msg with ⟨c, -, applied⟩ | ⟨-, world, same⟩
  · rw [applied] at failed
    exact absurd rfl failed
  · rw [same]
    exact ⟨rfl, rfl, rfl⟩

/-- A document whose second key is unknown. -/
def unknownKey : Json := .object [("port".toList, .numberUnsigned 1080), ("ports".toList, .null)]

theorem failed_message_unknownKey :
    let host := { reloadHost with parse := fun text => if text = configText then .ok unknownKey else reloadHost.parse text }
    let d : Daemon := { config := {}, env := {}, kernel := .blank, world := runningIn [] }
    (d.handleMsg host reloadText).2.config = d.config ∧ (d.handleMsg host reloadText).2.env = d.env ∧
      (d.handleMsg host reloadText).2.kernel.tables = d.kernel.tables :=
  failed_message_changes_nothing _ _ _ (by decide +kernel)

/-! ## Sequences of loads -/

/-- One call on a `Config` object, against the files and programs of its time. -/
inductive Load where
  | text (host : Host) (js : Str)
  | file (host : Host) (f : Str)

namespace Load

def run (c : Config) : Load → Except Exn ℤ × Config
  | text host js => Config.loadFromJsonStr host c js
  | file host f => Config.loadFromFile host c f

/-- The object after a sequence of calls. -/
def runAll (c : Config) (calls : List Load) : Config := calls.foldl (fun c l => (l.run c).2) c

theorem run_cases (l : Load) (c : Config) :
    ((l.run c).1 ≠ .ok Status.success ∧ (l.run c).2 = c) ∨
      ∃ host js, l.run c = Config.loadFromJsonStr host c js ∧ (l.run c).1 = .ok Status.success := by
  by_cases success : (l.run c).1 = .ok Status.success
  · cases l with
    | text host js => exact .inr ⟨host, js, rfl, success⟩
    | file host f =>
      simp only [run, Config.loadFromFile] at success ⊢
      cases content : host.readFile f with
      | some js =>
        rw [content] at success
        exact .inr ⟨host, js, rfl, success⟩
      | none =>
        rw [content] at success
        exact absurd (Except.ok.inj success) (by decide)
  · refine .inl ⟨success, ?_⟩
    cases l with
    | text host js => exact unchanged_of_loadFromJsonStr host c js success
    | file host f => exact unchanged_of_loadFromFile host c f success

theorem reached_run {c : Config} (reached : c.Reached) (l : Load) : (l.run c).2.Reached := by
  rcases l.run_cases c with ⟨-, same⟩ | ⟨host, js, text, -⟩
  · rwa [same]
  · rw [text]
    exact .load host js reached

theorem reached_runAll {c : Config} (reached : c.Reached) (calls : List Load) : (runAll c calls).Reached := by
  induction calls generalizing c with
  | nil => exact reached
  | cons l rest ih => exact ih (reached_run reached l)

theorem accepted_run {c : Config} (reached : c.Reached) {l : Load} (success : (l.run c).1 = .ok Status.success) :
    (l.run c).2.Accepted := by
  rcases l.run_cases c with ⟨failed, -⟩ | ⟨host, js, text, -⟩
  · exact absurd success failed
  · rw [text] at success ⊢
    exact ⟨c, host, js, reached, by rw [← success]⟩

/-- Once accepted, always accepted. -/
theorem accepted_runAll {c : Config} (accepted : c.Accepted) (calls : List Load) : (runAll c calls).Accepted := by
  induction calls generalizing c with
  | nil => exact accepted
  | cons l rest ih =>
    have next : (l.run c).2.Accepted := by
      rcases l.run_cases c with ⟨-, same⟩ | ⟨-, -, -, success⟩
      · rwa [same]
      · exact accepted_run accepted.reached success
    exact ih next

/-- One success in a sequence is enough. -/
theorem accepted_of_success (earlier : List Load) (l : Load) (later : List Load)
    (success : (l.run (runAll {} earlier)).1 = .ok Status.success) :
    (runAll {} (earlier ++ l :: later)).Accepted := by
  rw [runAll, List.foldl_append, List.foldl_cons]
  exact accepted_runAll (accepted_run (reached_runAll .init earlier) success) later

end Load

/-! ## The reserved slices -/

namespace Config.ReservedFirst

variable {reserved : Str} {l : List Str}

theorem count_eq_one (first : ReservedFirst reserved l) : l.head? = some reserved ∧ l.count reserved = 1 := by
  obtain ⟨rest, rfl, fresh⟩ := first.first
  refine ⟨rfl, ?_⟩
  rw [List.count_cons_self, List.count_eq_zero_of_not_mem fresh]

/-- The join glues no entry to the reserved slice. -/
theorem head?_splitOn (first : ReservedFirst reserved l) :
    ((join2str l ':').splitOn ':').head? = some reserved := by
  obtain ⟨rest, shape, fresh⟩ := first.first
  rcases List.eq_nil_or_concat l with empty | ⟨front, last, ends⟩
  · rw [empty] at shape
    contradiction
  · rw [List.concat_eq_append] at ends
    have free : ∀ e ∈ l, ':' ∉ e := by
      intro e member colon
      have char := cgroupChar_of_mem (first.valid e member) colon
      contradiction
    have final : l.getLast? = some last := by rw [ends, List.getLast?_concat]
    rw [join2str_eq_encode final, splitOn_encode free]
    subst shape
    exact head?_glued fresh final

end Config.ReservedFirst

/-- A start with an accepted configuration has the slice's directory when it filters the entries. -/
private theorem mem_keepExisting {h : Hierarchy} {reserved : Str} {l : List Str}
    (first : Config.ReservedFirst reserved l) (made : h.dirExist reserved = true) :
    reserved ∈ keepExisting h (bashReadArray (join2str l ':')) := by
  obtain ⟨plain, head⟩ := bashReadArray_reservedFirst first
  rw [keepExisting_eq plain]
  exact List.mem_filter.mpr ⟨List.mem_of_head? head, made⟩

/-- After one success in any sequence of loads both lists are valid and have their reserved slice in
front and nowhere else, the variables that are exported start with it, and a start creates it and
keeps it. -/
theorem reserved_slices_served (earlier : List Load) (l : Load) (later : List Load)
    (success : (l.run (Load.runAll {} earlier)).1 = .ok Status.success) :
    let c := Load.runAll {} (earlier ++ l :: later)
    (c.cgroupProxy.head? = some cgroupProxyPreserved ∧ c.cgroupProxy.count cgroupProxyPreserved = 1) ∧
      (c.cgroupNoproxy.head? = some cgroupNoproxyPreserved ∧
        c.cgroupNoproxy.count cgroupNoproxyPreserved = 1) ∧
      (∀ e ∈ c.cgroupProxy ++ c.cgroupNoproxy, validCgroup e = true) ∧
      (∀ env, (∃ v, (c.toEnv env).cgroupProxy = some v ∧
          (v.splitOn ':').head? = some cgroupProxyPreserved) ∧
        ∃ v, (c.toEnv env).cgroupNoproxy = some v ∧
          (v.splitOn ':').head? = some cgroupNoproxyPreserved) ∧
      ∀ env k, let h := (start (c.toEnv env) k).hierarchy
        h.dirExist cgroupProxyPreserved = true ∧ h.dirExist cgroupNoproxyPreserved = true ∧
        cgroupProxyPreserved ∈
          keepExisting h (cgroupArray (c.toEnv env).cgroupProxy cgroupProxyPreserved) ∧
        cgroupNoproxyPreserved ∈
          keepExisting h (cgroupArray (c.toEnv env).cgroupNoproxy cgroupNoproxyPreserved) := by
  intro c
  have accepted : c.Accepted := Load.accepted_of_success earlier l later success
  obtain ⟨proxy, noproxy⟩ := accepted.reserved
  refine ⟨proxy.count_eq_one, noproxy.count_eq_one, ?_, ?_, ?_⟩
  · intro e member
    rcases List.mem_append.mp member with member | member
    · exact proxy.valid e member
    · exact noproxy.valid e member
  · intro env
    exact ⟨⟨_, rfl, proxy.head?_splitOn⟩, _, rfl, noproxy.head?_splitOn⟩
  · intro env k h
    have slices : h = k.hierarchy.withSlices := by
      simp only [h, start_accepted accepted, Kernel.runAll_hierarchy]
    have proxyMade : h.dirExist cgroupProxyPreserved = true := by
      rw [slices]
      exact dirExist_withSlices _ (.inl (by decide))
    have noproxyMade : h.dirExist cgroupNoproxyPreserved = true := by
      rw [slices]
      exact dirExist_withSlices _ (.inr (by decide))
    exact ⟨proxyMade, noproxyMade, mem_keepExisting proxy proxyMade, mem_keepExisting noproxy noproxyMade⟩

/-- A file that cannot be opened, then one that loads, then the first again. -/
theorem reserved_slices_served_reload :
    (Load.runAll {} ([.file (Config.singleHost [] .null) []] ++ .file reloadHost [] ::
      [.file (Config.singleHost [] .null) []])).cgroupProxy.count cgroupProxyPreserved = 1 :=
  (reserved_slices_served [.file (Config.singleHost [] .null) []] (.file reloadHost [])
    [.file (Config.singleHost [] .null) []] (by decide)).1.2

/-! ## Numbers and program paths of a loaded configuration -/

/-- The value of an `int`. -/
def IsInt (i : ℤ) : Prop := -2 ^ 31 ≤ i ∧ i < 2 ^ 31

instance (i : ℤ) : Decidable (IsInt i) := inferInstanceAs (Decidable (_ ∧ _))

theorem isInt_toInt32 (i : ℤ) : IsInt (toInt32 i) := by
  constructor
  · exact @Int.le_bmod i (2 ^ 32) (by decide)
  · exact @Int.bmod_lt i (2 ^ 32) (by decide)

theorem isInt_truncInt32 (q : ℚ) : IsInt (truncInt32 q) := by
  rw [truncInt32]
  generalize (if q < 0 then ⌈q⌉ else ⌊q⌋) = t
  split
  · assumption
  · decide

theorem toInt32_of_isInt {i : ℤ} (fits : IsInt i) : toInt32 i = i :=
  Int.bmod_eq_of_le fits.1 fits.2

theorem isInt_getInt {j : Json} {i : ℤ} (converted : j.getInt = .ok i) : IsInt i := by
  cases j with
  | numberInteger n =>
    rw [← Except.ok.inj converted]
    exact isInt_toInt32 n
  | numberUnsigned n =>
    rw [← Except.ok.inj converted]
    exact isInt_toInt32 n
  | numberFloat q =>
    rw [← Except.ok.inj converted]
    exact isInt_truncInt32 q
  | boolean b =>
    rw [← Except.ok.inj converted]
    cases b <;> decide
  | _ => contradiction

/-- An `int` is written and read back. -/
theorem getInt_reparsed {i : ℤ} (fits : IsInt i) : (Json.numberInteger i).reparsed.getInt = .ok i := by
  rw [Json.reparsed]
  split
  · next nonneg => rw [Json.getInt, Int.toNat_of_nonneg nonneg, toInt32_of_isInt fits]
  · rw [Json.getInt, toInt32_of_isInt fits]

theorem isInt_tryassign {j : Json} {key : String} {old : ℤ} (fits : IsInt old) :
    IsInt (Config.tryassign j key Json.getInt old) := by
  rcases Config.tryassign_cases j key Json.getInt old with same | ⟨value, -, converted⟩
  · rwa [same]
  · exact isInt_getInt converted

namespace Config

/-- The numbers of a `Config` object. -/
structure Numbers (c : Config) : Prop where
  port : IsInt c.port
  positive : 0 < c.port
  table : IsInt c.table
  fwmark : IsInt c.fwmark
  markNewin : IsInt c.markNewin

/-- The port that an accepted document assigns is the one that was validated. -/
theorem positive_port {j : Json} {old : ℤ} (valid : validateItems j.items = .ok true) (before : 0 < old) :
    0 < tryassign j "port" Json.getInt old := by
  rcases tryassign_cases j "port" Json.getInt old with same | ⟨value, found, converted⟩
  · rwa [same]
  · have item := validateItem_of_validateItems valid (Json.mem_items_of_at? found)
    unfold validateItem at item
    rw [if_neg (by decide), if_pos rfl, converted] at item
    simpa [validPort, bind, Except.bind, pure, Except.pure] using item

theorem Reached.numbers {c : Config} (reached : Reached c) : Numbers c := by
  induction reached with
  | init => constructor <;> decide
  | @load c host js _ ih =>
    rcases loadFromJsonStr_cases host c js with ⟨r, same, -⟩ | ⟨j, programs, -, valid, done, rfl⟩
    · rw [same]
      exact ih
    · rw [done]
      exact ⟨isInt_tryassign ih.port, positive_port valid ih.positive, isInt_tryassign ih.table,
        isInt_tryassign ih.fwmark, isInt_tryassign ih.markNewin⟩

/-- The programs of a list are absolute paths of existing files. -/
def Resolved (host : Host) (v : List Str) : Prop :=
  ∀ name ∈ v, name.head? = some '/' ∧ host.fileExist name = true

theorem resolved_toRealProgramPath {host : Host}
    (absolute : ∀ path, host.bashReadlink path ≠ [] → (host.bashReadlink path).head? = some '/')
    (v : List Str) : Resolved host (toRealProgramPath host v) := by
  intro name member
  obtain ⟨member, nonempty⟩ := List.mem_filter.mp member
  obtain ⟨given, -, rfl⟩ := List.mem_map.mp member
  have found : getRealExistPath host given ≠ [] := by simpa using nonempty
  simp only [getRealExistPath] at found ⊢
  split
  · assumption
  · next other =>
    rw [if_neg other] at found
    split
    · next none =>
      rw [if_pos none] at found
      exact absurd rfl found
    · next some =>
      rw [if_neg some] at found
      split
      · next exist =>
        rw [if_pos exist] at found
        exact ⟨absolute _ found, exist⟩
      · next gone =>
        rw [if_neg gone] at found
        exact absurd rfl found

/-! ## Saving and loading -/

theorem merge_of_reservedFirst {reserved : Str} {l : List Str} (first : ReservedFirst reserved l) :
    merge reserved l = l := by
  obtain ⟨rest, rfl, fresh⟩ := first.first
  rw [merge, List.filter_cons_of_neg (by simp), List.filter_eq_self.mpr]
  intro e member
  have other : e ≠ reserved := by
    rintro rfl
    exact fresh member
  simpa using other

/-- A configuration that a load leaves behind, on the files and programs of a host. -/
structure Settled (host : Host) (c : Config) : Prop where
  proxy : ReservedFirst cgroupProxyPreserved c.cgroupProxy
  noproxy : ReservedFirst cgroupNoproxyPreserved c.cgroupNoproxy
  numbers : Numbers c
  programProxy : Resolved host c.programProxy
  programNoproxy : Resolved host c.programNoproxy

theorem validateItems_of_forall {items : List (Str × Json)}
    (valid : ∀ item ∈ items, validateItem item.1 item.2 = .ok true) : validateItems items = .ok true := by
  induction items with
  | nil => rfl
  | cons item rest ih =>
    have later := ih fun other member => valid other (List.mem_cons_of_mem _ member)
    have first := valid item List.mem_cons_self
    simp only [validateItems, first, bind, Except.bind, if_true, later]

private theorem validateItem_cgroups {key : Str} {l : List Str}
    (named : key = "cgroup_proxy".toList ∨ key = "cgroup_noproxy".toList)
    (valid : ∀ e ∈ l, validCgroup e = true) : validateItem key (.array (l.map .string)) = .ok true := by
  have all : validCgroups l = true := by simpa [validCgroups] using valid
  rw [validateItem, if_pos named, getStrings_map]
  simp only [bind, Except.bind, pure, Except.pure, all]

/-- The validator knows every key that the encoder writes and accepts every value. -/
theorem validateItems_toJson {host : Host} {c : Config} (settled : Settled host c) :
    validateItems c.toJson.reparsed.items = .ok true := by
  apply validateItems_of_forall
  intro item member
  obtain ⟨value, known, same⟩ := Json.mem_items_reparsed_assigned member
  obtain ⟨key, read⟩ := item
  obtain rfl : read = value.reparsed := same
  have port : validateItem "port".toList (Json.numberInteger c.port).reparsed = .ok true := by
    unfold validateItem
    rw [if_neg (by decide), if_pos rfl, getInt_reparsed settled.numbers.port]
    simp [validPort, settled.numbers.positive, bind, Except.bind, pure, Except.pure]
  simp only [members, List.mem_cons, List.not_mem_nil, or_false, Prod.mk.injEq] at known
  rcases known with ⟨rfl, rfl⟩ | ⟨rfl, rfl⟩ | ⟨rfl, rfl⟩ | ⟨rfl, rfl⟩ | ⟨rfl, rfl⟩ | ⟨rfl, rfl⟩ | ⟨rfl, rfl⟩ |
    ⟨rfl, rfl⟩ | ⟨rfl, rfl⟩ | ⟨rfl, rfl⟩ | ⟨rfl, rfl⟩ | ⟨rfl, rfl⟩ | ⟨rfl, rfl⟩ | ⟨rfl, rfl⟩
  case inr.inr.inl =>
    rw [Json.reparsed_strings]
    exact validateItem_cgroups (.inl rfl) settled.proxy.valid
  case inr.inr.inr.inl =>
    rw [Json.reparsed_strings]
    exact validateItem_cgroups (.inr rfl) settled.noproxy.valid
  case inr.inr.inr.inr.inr.inl => exact port
  all_goals rfl

theorem nodup_members (c : Config) : (c.members.map Prod.fst).Nodup := by
  have keys : c.members.map Prod.fst = (({} : Config).members).map Prod.fst := rfl
  rw [keys]
  decide +kernel

theorem tryassign_toJson {α : Type} {c : Config} {key : String} {value : Json} {x : α}
    {convert : Json → Except Exn α} (old : α) (member : (key.toList, value) ∈ c.members)
    (converted : convert value.reparsed = .ok x) : tryassign c.toJson.reparsed key convert old = x := by
  have found : c.toJson.reparsed.at? key.toList = .ok value.reparsed := by
    rw [toJson, Json.at?_reparsed, Json.at?_assigned (nodup_members c) member]
    rfl
  simp only [tryassign, found, Except.bind, converted]

/-- The decoder assigns every field from the member that the encoder wrote for it. -/
theorem assign_toJson {c : Config} (numbers : Numbers c) (d : Config) : assign c.toJson.reparsed d = c := by
  have strings (key : String) (l old : List Str) (member : (key.toList, .array (l.map .string)) ∈ c.members) :
      tryassign c.toJson.reparsed key Json.getStrings old = l :=
    tryassign_toJson old member (by rw [Json.reparsed_strings, getStrings_map])
  have flag (key : String) (b old : Bool) (member : (key.toList, .boolean b) ∈ c.members) :
      tryassign c.toJson.reparsed key Json.getBool old = b := tryassign_toJson old member rfl
  have number (key : String) (i old : ℤ) (fits : IsInt i) (member : (key.toList, .numberInteger i) ∈ c.members) :
      tryassign c.toJson.reparsed key Json.getInt old = i :=
    tryassign_toJson old member (getInt_reparsed fits)
  rw [assign, strings _ c.programProxy _ (by simp [members]), strings _ c.programNoproxy _ (by simp [members]),
    strings _ c.cgroupProxy _ (by simp [members]), strings _ c.cgroupNoproxy _ (by simp [members]),
    flag _ c.enableGateway _ (by simp [members]), number _ c.port _ numbers.port (by simp [members]),
    flag _ c.enableDns _ (by simp [members]), flag _ c.enableTcp _ (by simp [members]),
    flag _ c.enableUdp _ (by simp [members]), flag _ c.enableIpv4 _ (by simp [members]),
    flag _ c.enableIpv6 _ (by simp [members]), number _ c.table _ numbers.table (by simp [members]),
    number _ c.fwmark _ numbers.fwmark (by simp [members]),
    number _ c.markNewin _ numbers.markNewin (by simp [members])]

/-- Loading the text of a settled configuration into any other gives it back. -/
theorem loadFromJsonStr_toJson {host : Host} {c : Config} {js : Str} (settled : Settled host c) (d : Config)
    (parsed : host.parse js = .ok c.toJson.reparsed) : loadFromJsonStr host d js = (.ok Status.success, c) := by
  simp only [loadFromJsonStr, validateJsonStr, parsed, bind, Except.bind, validateItems_toJson settled,
    assign_toJson settled.numbers, toRealProgramPath_of_exist settled.programProxy,
    toRealProgramPath_of_exist settled.programNoproxy, mergeReserved, merge_of_reservedFirst settled.proxy,
    merge_of_reservedFirst settled.noproxy]

/-- What a successful load leaves is settled on its host. -/
theorem settled_of_load {host : Host} {before c : Config} {js : Str} (reached : Reached before)
    (absolute : ∀ path, host.bashReadlink path ≠ [] → (host.bashReadlink path).head? = some '/')
    (load : loadFromJsonStr host before js = (.ok Status.success, c)) : Settled host c := by
  have accepted : Accepted c := ⟨before, host, js, reached, load⟩
  obtain ⟨proxy, noproxy⟩ := accepted.reserved
  refine ⟨proxy, noproxy, accepted.reached.numbers, ?_, ?_⟩
  all_goals
    obtain ⟨j, -, -, rfl⟩ := exists_of_load load
    exact resolved_toRealProgramPath absolute _

/-- Saving adds a file and keeps the programs. -/
theorem Settled.save {host : Host} {c : Config} (settled : Settled host c) (opens : Bool) (f : Str) :
    Settled (saveToFile host opens c f).2 c := by
  have keeps {v : List Str} (resolved : Resolved host v) : Resolved (saveToFile host opens c f).2 v := by
    intro name member
    obtain ⟨absolute, exist⟩ := resolved name member
    refine ⟨absolute, ?_⟩
    rw [saveToFile]
    split
    · dsimp only
      rw [Function.update_apply]
      split
      · rfl
      · exact exist
    · exact exist
  exact ⟨settled.proxy, settled.noproxy, settled.numbers, keeps settled.programProxy,
    keeps settled.programNoproxy⟩

end Config

open Config in
/-- Saving and loading give back a loaded configuration, as a text and through a file, whatever object
it is loaded into. The JSON library is assumed to read back the text that it prints for this value, also
between blanks. -/
theorem save_load_roundtrip (host : Host) (before c : Config) (js : Str) (reached : Reached before)
    (load : loadFromJsonStr host before js = (.ok Status.success, c))
    (absolute : ∀ path, host.bashReadlink path ≠ [] → (host.bashReadlink path).head? = some '/')
    (parsed : host.parse (host.dump c.toJson) = .ok c.toJson.reparsed)
    (blanks : host.parse (fileText (host.dump c.toJson)) = host.parse (host.dump c.toJson)) (d : Config) :
    loadFromJsonStr host d (c.toJsonStr host) = (.ok Status.success, c) ∧
      ∀ f, (saveToFile host true c f).1 = Status.success ∧
        loadFromFile (saveToFile host true c f).2 d f = (.ok Status.success, c) := by
  have settled := settled_of_load reached absolute load
  refine ⟨loadFromJsonStr_toJson settled d parsed, fun f => ⟨rfl, ?_⟩⟩
  have content : (saveToFile host true c f).2.readFile f = some (fileText (host.dump c.toJson)) := by
    simp [saveToFile, toJsonStr]
  have read : (saveToFile host true c f).2.parse (fileText (host.dump c.toJson)) = .ok c.toJson.reparsed :=
    blanks.trans parsed
  rw [loadFromFile, content]
  exact loadFromJsonStr_toJson (settled.save true f) d read

/-- What `appSource` is loaded as. -/
def appConfig : Config :=
  Config.ofLists ["/usr/lib/v2ray/v2ray".toList] ["/usr/bin/curl".toList] ["/user.slice".toList] []

/-- Two programs, by their names. -/
def appSource : Str :=
  ' ' :: ("\x7b\"cgroup_noproxy\":[\"/user.slice\"]," ++
    "\"program_noproxy\":[\"v2ray\"],\"program_proxy\":[\"curl\"]\x7d").toList

def appText : Str :=
  '\x7b' :: '"' :: 'c' :: 'g' ::
    ("roup_noproxy\":[\"/noproxy.slice\",\"/user.slice\"],\"cgroup_proxy\":[\"/proxy.slice\"]," ++
      "\"enable_dns\":true,\"enable_gateway\":false,\"enable_ipv4\":true,\"enable_ipv6\":true," ++
      "\"enable_tcp\":true,\"enable_udp\":true,\"fwmark\":39283,\"mark_newin\":39271,\"port\":12345," ++
      "\"program_noproxy\":[\"/usr/lib/v2ray/v2ray\"],\"program_proxy\":[\"/usr/bin/curl\"],\"table\":10007\x7d").toList

/-- A host on which one of the programs is a link. -/
def appHost : Host where
  parse text :=
    if text.head? = some ' ' then .ok (Config.listsDocument ["v2ray".toList] ["curl".toList] ["/user.slice".toList] [])
    else .ok appConfig.toJson.reparsed
  dump _ := appText
  readFile _ := none
  fileExist path := path = "/usr/lib/v2ray/v2ray".toList ∨ path = "/usr/bin/curl".toList
  bashWhich name :=
    if name = "v2ray".toList then "/usr/bin/v2ray".toList
    else if name = "curl".toList then "/usr/bin/curl".toList else []
  bashReadlink path :=
    if path = "/usr/bin/v2ray".toList then "/usr/lib/v2ray/v2ray".toList
    else if path = "/usr/bin/curl".toList then path else []

theorem parse_appHost (text : Str) : appHost.parse text =
    if text.head? = some ' ' then
      .ok (Config.listsDocument ["v2ray".toList] ["curl".toList] ["/user.slice".toList] [])
    else .ok appConfig.toJson.reparsed := rfl

theorem parse_appText {text : Str} (starts : text.head? = some '\x7b') :
    appHost.parse text = .ok appConfig.toJson.reparsed := by
  rw [parse_appHost, starts, if_neg (by decide)]

theorem load_appSource : Config.loadFromJsonStr appHost {} appSource = (.ok Status.success, appConfig) := by
  have parsed : appHost.parse appSource =
      .ok (Config.listsDocument ["v2ray".toList] ["curl".toList] ["/user.slice".toList] []) := by
    rw [parse_appHost, show appSource.head? = some ' ' from rfl, if_pos rfl]
  have valid : Config.validateItems
      (Config.listsDocument ["v2ray".toList] ["curl".toList] ["/user.slice".toList] []).items = .ok true :=
    Config.validateItems_listsDocument (by decide) fun _ member => absurd member List.not_mem_nil
  have noproxy : Config.toRealProgramPath appHost ["v2ray".toList] = ["/usr/lib/v2ray/v2ray".toList] := by decide
  have proxy : Config.toRealProgramPath appHost ["curl".toList] = ["/usr/bin/curl".toList] := by decide
  simp only [Config.loadFromJsonStr, Config.validateJsonStr, parsed, bind, Except.bind, valid,
    Config.assign_listsDocument, noproxy, proxy]
  rfl

/-- The programs are saved by the paths they were found at, and kept when these are loaded over another
configuration. -/
theorem save_load_roundtrip_programs :
    Config.loadFromJsonStr appHost {} appSource = (.ok Status.success, appConfig) ∧
      Config.loadFromFile (Config.saveToFile appHost true appConfig "/tmp/config.json".toList).2
        (Config.ofLists ["/usr/bin/curl".toList] [] [] ["/".toList]) "/tmp/config.json".toList =
          (.ok Status.success, appConfig) := by
  have absolute (path : Str) (found : appHost.bashReadlink path ≠ []) :
      (appHost.bashReadlink path).head? = some '/' := by
    dsimp only [appHost] at found ⊢
    split_ifs at found ⊢ with link file
    · rfl
    · rw [file]; rfl
    · exact absurd rfl found
  have long : 4 - appText.length = 0 := by
    rw [appText, List.length_cons, List.length_cons, List.length_cons, List.length_cons]
    omega
  have text : appHost.parse appText = .ok appConfig.toJson.reparsed := parse_appText rfl
  have saved : appHost.parse (Config.fileText appText) = .ok appConfig.toJson.reparsed := by
    rw [Config.fileText, long]
    exact parse_appText rfl
  exact ⟨load_appSource, ((save_load_roundtrip appHost {} appConfig appSource .init load_appSource absolute text
    (saved.trans text.symm) _).2 _).2⟩

/-! ## The message of the test client -/

/-- The message `send_config` builds: the saved text is its `data`, as a string. -/
def sendConfigMsg (host : Host) (c : Config) : Json :=
  .assigned [("type".toList, .numberInteger Daemon.msgTypeConfigJson),
    ("data".toList, .string (c.toJsonStr host))]

/-- The daemon prints the string again and validates a document that is one string. -/
theorem handleMsg_sendConfig {host : Host} {c : Config} {d : Daemon} {msg : Str}
    (parsed : host.parse msg = .ok (sendConfigMsg host c).reparsed)
    (nested : host.parse (host.dump (.string (c.toJsonStr host))) = .ok (.string (c.toJsonStr host))) :
    d.handleMsg host msg = (Status.paramError, d) := by
  have distinct (value data : Json) :
      ([("type".toList, value), ("data".toList, data)].map Prod.fst).Nodup := by
    simp
  have type : ((sendConfigMsg host c).reparsed.at? "type".toList).bind Json.getInt =
      .ok Daemon.msgTypeConfigJson := by
    rw [sendConfigMsg, Json.at?_reparsed, Json.at?_assigned (distinct _ _) List.mem_cons_self]
    rfl
  have data : (sendConfigMsg host c).reparsed.at? "data".toList = .ok (.string (c.toJsonStr host)) := by
    rw [sendConfigMsg, Json.at?_reparsed, Json.at?_assigned (distinct _ _)
      (List.mem_cons_of_mem _ List.mem_cons_self)]
    rfl
  have rejected : Config.loadFromJsonStr host d.config (host.dump (.string (c.toJsonStr host))) =
      (.ok Status.paramError, d.config) := by
    have unknown : Config.validateItem [] (.string (c.toJsonStr host)) = .ok false := rfl
    simp only [Config.loadFromJsonStr, Config.validateJsonStr, nested, bind, Except.bind, Json.items,
      Config.validateItems, unknown]
    rfl
  have failed : d.configLoaded (.ok Status.paramError, d.config) = (.ok Status.paramError, d) := rfl
  rw [Daemon.handleMsg, parsed]
  simp only [Daemon.dispatch, type, data, if_true, rejected, failed]

/-- The daemon accepts no configuration that is sent this way. -/
theorem send_config_never_delivers (host : Host) (c : Config) (d : Daemon) (msg : Str)
    (parsed : host.parse msg = .ok (sendConfigMsg host c).reparsed)
    (nested : host.parse (host.dump (.string (c.toJsonStr host))) = .ok (.string (c.toJsonStr host))) :
    ¬ ((d.handleMsg host msg).1 = Status.success ∧ (d.handleMsg host msg).2.config = c) := by
  rw [handleMsg_sendConfig parsed nested]
  have other : Status.paramError ≠ Status.success := by decide
  exact fun delivered => other delivered.1

/-! ## One configuration -/

/-- The configuration that proxies everything, as it is after loading. -/
def rootConfig : Config := Config.ofLists [] [] [] ["/".toList]

def rootText : Str :=
  '\x7b' :: '"' :: 'c' :: 'g' ::
    ("roup_noproxy\":[\"/noproxy.slice\"],\"cgroup_proxy\":[\"/proxy.slice\",\"/\"]," ++
      "\"enable_dns\":true,\"enable_gateway\":false,\"enable_ipv4\":true,\"enable_ipv6\":true," ++
      "\"enable_tcp\":true,\"enable_udp\":true,\"fwmark\":39283,\"mark_newin\":39271,\"port\":12345," ++
      "\"program_noproxy\":[],\"program_proxy\":[],\"table\":10007\x7d").toList

/-- A printed string. -/
def quoted (s : Str) : Str :=
  '"' :: s.flatMap (fun c => if c = '"' ∨ c = '\\' then ['\\', c] else [c]) ++ ['"']

def rootMsg : Str :=
  '\x7b' :: '"' :: 'd' :: ("ata\":".toList ++ quoted rootText ++ ",\"type\":1\x7d".toList)

/-- A host whose JSON library knows this configuration, its text and the message with it. -/
def rootHost : Host where
  parse text :=
    if text = rootMsg then
      .ok (.object [("data".toList, .string rootText), ("type".toList, .numberUnsigned 1)])
    else if text = quoted rootText then .ok (.string rootText)
    else if text = rootText ∨ text = Config.fileText rootText then .ok rootConfig.toJson.reparsed
    else .error .parseError
  dump
    | .string s => quoted s
    | _ => rootText
  readFile _ := none
  fileExist _ := true
  bashWhich _ := []
  bashReadlink _ := []

theorem rootText_ne_rootMsg : rootText ≠ rootMsg := by
  intro same
  have third : some 'c' = some 'd' := congrArg (fun text : Str => text[2]?) same
  exact absurd third (by decide)

theorem ne_quoted {text : Str} (s : Str) (starts : text.head? = some '\x7b') : text ≠ quoted s := by
  rintro rfl
  exact absurd (Option.some.inj starts) (by decide)

theorem parse_rootText : rootHost.parse rootText = .ok rootConfig.toJson.reparsed := by
  have notString : rootText ≠ quoted rootText := ne_quoted rootText rfl
  simp only [rootHost, if_neg rootText_ne_rootMsg, if_neg notString, true_or, if_true]

theorem parse_quoted : rootHost.parse (quoted rootText) = .ok (.string rootText) := by
  have notMsg : quoted rootText ≠ rootMsg := (ne_quoted rootText rfl).symm
  simp only [rootHost, if_neg notMsg, if_true]

theorem load_rootHost : Config.loadFromJsonStr rootHost {} rootText = (.ok Status.success, rootConfig) := by
  have accepted : rootConfig.Accepted := Config.accepted_single rootText (by decide) (by decide) (by decide)
  obtain ⟨proxy, noproxy⟩ := accepted.reserved
  have settled : Config.Settled rootHost rootConfig :=
    ⟨proxy, noproxy, accepted.reached.numbers, fun _ member => absurd member List.not_mem_nil,
      fun _ member => absurd member List.not_mem_nil⟩
  exact Config.loadFromJsonStr_toJson settled {} parse_rootText

theorem dump_rootConfig : rootHost.dump rootConfig.toJson = rootText := by
  simp only [rootHost, Config.toJson, Json.assigned]

theorem parse_rootMsg : rootHost.parse rootMsg = .ok (sendConfigMsg rootHost rootConfig).reparsed := by
  have text : rootConfig.toJsonStr rootHost = rootText := dump_rootConfig
  rw [sendConfigMsg, text]
  simp only [rootHost, if_true]
  rfl

/-- A daemon with the default configuration stays with it. -/
theorem send_config_rejected_root :
    Config.loadFromJsonStr rootHost {} rootText = (.ok Status.success, rootConfig) ∧
      ¬ (((appliedDaemon (Config.ofLists [] [] [] [])).handleMsg rootHost rootMsg).1 = Status.success ∧
        ((appliedDaemon (Config.ofLists [] [] [] [])).handleMsg rootHost rootMsg).2.config = rootConfig) := by
  have nested : rootHost.parse (rootHost.dump (.string (rootConfig.toJsonStr rootHost))) =
      .ok (.string (rootConfig.toJsonStr rootHost)) := by
    rw [Config.toJsonStr, dump_rootConfig]
    exact parse_quoted
  refine ⟨load_rootHost, ?_⟩
  rw [handleMsg_sendConfig parse_rootMsg nested]
  have other : (Config.ofLists [] [] [] []).cgroupProxy ≠ rootConfig.cgroupProxy := by decide
  exact fun delivered => other (congrArg Config.cgroupProxy delivered.2)

theorem send_config_never_delivers_root :
    ¬ (((appliedDaemon rootConfig).handleMsg rootHost rootMsg).1 = Status.success ∧
      ((appliedDaemon rootConfig).handleMsg rootHost rootMsg).2.config = rootConfig) :=
  send_config_never_delivers rootHost rootConfig (appliedDaemon rootConfig) rootMsg parse_rootMsg
    (by rw [Config.toJsonStr, dump_rootConfig]; exact parse_quoted)

end CgProxy
