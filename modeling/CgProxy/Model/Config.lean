import CgProxy.Model.Json

/-! # The configuration: validation, loading and export

This file follows `config.cpp`. Validation and assignment are two passes over the parsed document;
the first may throw, the second swallows every exception of an assignment and keeps the old value.
`Config.Accepted` are the values a successful load can leave in a `Config` object, after any number
of earlier loads, and `Accepted.reserved` is what holds of all of them.
-/

namespace CgProxy

/-- What loading a configuration asks of code outside the repository: the JSON library, the file
system, and the commands `which` and `readlink`. -/
structure Host where
  parse : Str → Except Exn Json
  dump : Json → Str
  readFile : Str → Option Str
  fileExist : Str → Bool
  bashWhich : Str → Str
  bashReadlink : Str → Str

/-- The real path of a program given by path or by name; empty when there is none. -/
def getRealExistPath (host : Host) (name : Str) : Str :=
  if name.head? = some '/' ∧ host.fileExist name then name
  else
    let path := host.bashWhich name
    if path = [] then []
    else
      let path := host.bashReadlink path
      if host.fileExist path then path else []

structure Config where
  programProxy : List Str := [cgroupProxyPreserved]
  programNoproxy : List Str := [cgroupNoproxyPreserved]
  cgroupProxy : List Str := []
  cgroupNoproxy : List Str := []
  enableGateway : Bool := false
  port : ℤ := 12345
  enableDns : Bool := true
  enableTcp : Bool := true
  enableUdp : Bool := true
  enableIpv4 : Bool := true
  enableIpv6 : Bool := true
  table : ℤ := 10007
  fwmark : ℤ := 0x9973
  markNewin : ℤ := 0x9967
deriving DecidableEq

/-- The environment variables of the daemon that the script reads or `toEnv` writes. Flags and
numbers are carried by value instead of as `true`/`false` and decimal digits. -/
structure Env where
  cgroupMountPoint : Option Str := none
  programProxy : Option Str := none
  programNoproxy : Option Str := none
  cgroupProxy : Option Str := none
  cgroupNoproxy : Option Str := none
  enableGateway : Option Bool := none
  port : Option ℤ := none
  enableDns : Option Bool := none
  enableTcp : Option Bool := none
  enableUdp : Option Bool := none
  enableIpv4 : Option Bool := none
  enableIpv6 : Option Bool := none
  table : Option ℤ := none
  fwmark : Option ℤ := none
  markNewin : Option ℤ := none
  tableReroute : Option ℤ := none
  tableTproxy : Option ℤ := none
  fwmarkReroute : Option ℤ := none
  fwmarkTproxy : Option ℤ := none
deriving DecidableEq

def cgroup2MountPoint : Str := "/var/run/cgproxy/cgroup2".toList

namespace Config

/-- The `setenv` calls replace fifteen variables and leave the others as they were. -/
def toEnv (c : Config) (env : Env) : Env :=
  { env with
    cgroupMountPoint := some cgroup2MountPoint
    programProxy := some (join2str c.programProxy ':')
    programNoproxy := some (join2str c.programNoproxy ':')
    cgroupProxy := some (join2str c.cgroupProxy ':')
    cgroupNoproxy := some (join2str c.cgroupNoproxy ':')
    enableGateway := some c.enableGateway
    port := some c.port
    enableDns := some c.enableDns
    enableTcp := some c.enableTcp
    enableUdp := some c.enableUdp
    enableIpv4 := some c.enableIpv4
    enableIpv6 := some c.enableIpv6
    table := some c.table
    fwmark := some c.fwmark
    markNewin := some c.markNewin }

/-! ## Saving -/

/-- The assignments of `toJsonStr`, in its order. -/
def members (c : Config) : List (Str × Json) :=
  [("program_proxy".toList, .array (c.programProxy.map .string)),
    ("program_noproxy".toList, .array (c.programNoproxy.map .string)),
    ("cgroup_proxy".toList, .array (c.cgroupProxy.map .string)),
    ("cgroup_noproxy".toList, .array (c.cgroupNoproxy.map .string)),
    ("enable_gateway".toList, .boolean c.enableGateway),
    ("port".toList, .numberInteger c.port),
    ("enable_dns".toList, .boolean c.enableDns),
    ("enable_tcp".toList, .boolean c.enableTcp),
    ("enable_udp".toList, .boolean c.enableUdp),
    ("enable_ipv4".toList, .boolean c.enableIpv4),
    ("enable_ipv6".toList, .boolean c.enableIpv6),
    ("table".toList, .numberInteger c.table),
    ("fwmark".toList, .numberInteger c.fwmark),
    ("mark_newin".toList, .numberInteger c.markNewin)]

/-- The document that it prints. -/
def toJson (c : Config) : Json := .assigned c.members

def toJsonStr (host : Host) (c : Config) : Str := host.dump c.toJson

/-- `o << setw(4) << js << endl`. -/
def fileText (js : Str) : Str := List.replicate (4 - js.length) ' ' ++ js ++ ['\n']

/-- The status, with the files afterwards; `opens` says whether the file can be opened for writing. -/
def saveToFile (host : Host) (opens : Bool) (c : Config) (f : Str) : ℤ × Host :=
  if opens then
    (0, { host with
      readFile := Function.update host.readFile f (some (fileText (c.toJsonStr host)))
      fileExist := Function.update host.fileExist f true })
  else (Status.fileError, host)

/-! ## Validation -/

def boolset : List Str :=
  ["enable_gateway".toList, "enable_dns".toList, "enable_tcp".toList, "enable_udp".toList,
    "enable_ipv4".toList, "enable_ipv6".toList]

def allowset : List Str :=
  ["program_proxy".toList, "program_noproxy".toList, "comment".toList, "table".toList,
    "fwmark".toList, "mark_newin".toList]

/-- The checks made for one item of the document. -/
def validateItem (key : Str) (value : Json) : Except Exn Bool :=
  if key = "cgroup_proxy".toList ∨ key = "cgroup_noproxy".toList then
    match value with
    | .string s => .ok (validCgroup s)
    | .array _ => do return validCgroups (← value.getStrings)
    | _ => .ok false
  else if key = "port".toList then do return validPort (← value.getInt)
  else if key ∈ boolset then .ok value.isBoolean
  else .ok (key ∈ allowset)

/-- The first invalid item ends the loop; a failed conversion leaves it by an exception. -/
def validateItems : List (Str × Json) → Except Exn Bool
  | [] => .ok true
  | (key, value) :: rest => do
      if ← validateItem key value then validateItems rest else return false

def validateJsonStr (host : Host) (js : Str) : Except Exn Bool := do
  validateItems (← host.parse js).items

/-! ## Loading -/

/-- `tryassign`: the named member when it converts, else the value the field had. -/
def tryassign {α : Type} (j : Json) (key : String) (convert : Json → Except Exn α) (old : α) : α :=
  match (j.at? key.toList).bind convert with
  | .ok value => value
  | .error _ => old

def assign (j : Json) (c : Config) : Config where
  programProxy := tryassign j "program_proxy" Json.getStrings c.programProxy
  programNoproxy := tryassign j "program_noproxy" Json.getStrings c.programNoproxy
  cgroupProxy := tryassign j "cgroup_proxy" Json.getStrings c.cgroupProxy
  cgroupNoproxy := tryassign j "cgroup_noproxy" Json.getStrings c.cgroupNoproxy
  enableGateway := tryassign j "enable_gateway" Json.getBool c.enableGateway
  port := tryassign j "port" Json.getInt c.port
  enableDns := tryassign j "enable_dns" Json.getBool c.enableDns
  enableTcp := tryassign j "enable_tcp" Json.getBool c.enableTcp
  enableUdp := tryassign j "enable_udp" Json.getBool c.enableUdp
  enableIpv4 := tryassign j "enable_ipv4" Json.getBool c.enableIpv4
  enableIpv6 := tryassign j "enable_ipv6" Json.getBool c.enableIpv6
  table := tryassign j "table" Json.getInt c.table
  fwmark := tryassign j "fwmark" Json.getInt c.fwmark
  markNewin := tryassign j "mark_newin" Json.getInt c.markNewin

/-- Names that resolve to no program are dropped. -/
def toRealProgramPath (host : Host) (v : List Str) : List Str :=
  (v.map (getRealExistPath host)).filter (· ≠ [])

/-- Erase every occurrence of the reserved slice, then insert it in front. -/
def merge (reserved : Str) (v : List Str) : List Str := reserved :: v.filter (· ≠ reserved)

def mergeReserved (c : Config) : Config :=
  { c with
    cgroupProxy := merge cgroupProxyPreserved c.cgroupProxy
    cgroupNoproxy := merge cgroupNoproxyPreserved c.cgroupNoproxy }

/-- The status, or the exception that left the call, with the object afterwards. -/
def loadFromJsonStr (host : Host) (c : Config) (js : Str) : Except Exn ℤ × Config :=
  match validateJsonStr host js with
  | .error e => (.error e, c)
  | .ok false => (.ok Status.paramError, c)
  | .ok true =>
      match host.parse js with
      | .error e => (.error e, c)
      | .ok j =>
          let c := assign j c
          let c := { c with
            programNoproxy := toRealProgramPath host c.programNoproxy
            programProxy := toRealProgramPath host c.programProxy }
          (.ok Status.success, mergeReserved c)

def loadFromFile (host : Host) (c : Config) (f : Str) : Except Exn ℤ × Config :=
  match host.readFile f with
  | some js => loadFromJsonStr host c js
  | none => (.ok Status.fileError, c)

/-! ## Reachable values -/

/-- The values of one `Config` object over any sequence of loads, successful or not, each against
whatever files and programs exist at the time. -/
inductive Reached : Config → Prop
  | init : Reached {}
  | load {c : Config} (host : Host) (js : Str) : Reached c → Reached (loadFromJsonStr host c js).2

/-- The values a successful load leaves behind. -/
def Accepted (c : Config) : Prop :=
  ∃ before host js, Reached before ∧ loadFromJsonStr host before js = (.ok Status.success, c)

/-- A load that does not succeed changes nothing; one that does ends with the merge. -/
theorem loadFromJsonStr_cases (host : Host) (c : Config) (js : Str) :
    (∃ r, loadFromJsonStr host c js = (r, c) ∧ r ≠ .ok Status.success) ∨
      ∃ j programs, host.parse js = .ok j ∧ validateItems j.items = .ok true ∧
        loadFromJsonStr host c js = (.ok Status.success, mergeReserved programs) ∧
        programs = { assign j c with
          programNoproxy := toRealProgramPath host (assign j c).programNoproxy
          programProxy := toRealProgramPath host (assign j c).programProxy } := by
  cases parsed : host.parse js with
  | error e =>
    exact .inl ⟨.error e, by simp [loadFromJsonStr, validateJsonStr, parsed, bind, Except.bind], by simp⟩
  | ok j =>
    cases valid : validateItems j.items with
    | error e =>
      exact .inl ⟨.error e,
        by simp [loadFromJsonStr, validateJsonStr, parsed, valid, bind, Except.bind], by simp⟩
    | ok verdict =>
      cases verdict with
      | false =>
        refine .inl ⟨.ok Status.paramError,
          by simp [loadFromJsonStr, validateJsonStr, parsed, valid, bind, Except.bind], ?_⟩
        simp [Status.paramError, Status.success]
      | true =>
        exact .inr ⟨j, _, rfl, valid,
          by simp [loadFromJsonStr, validateJsonStr, parsed, valid, bind, Except.bind], rfl⟩

/-- What a successful load leaves, in terms of the document. -/
theorem exists_of_load {host : Host} {before c : Config} {js : Str}
    (load : loadFromJsonStr host before js = (.ok Status.success, c)) :
    ∃ j, host.parse js = .ok j ∧ validateItems j.items = .ok true ∧
      c = mergeReserved { assign j before with
        programNoproxy := toRealProgramPath host (assign j before).programNoproxy
        programProxy := toRealProgramPath host (assign j before).programProxy } := by
  rcases loadFromJsonStr_cases host before js with ⟨r, same, failed⟩ | ⟨j, programs, parsed, valid, done, rfl⟩
  · rw [same] at load
    exact absurd (Prod.mk.inj load).1 failed
  · rw [done] at load
    exact ⟨j, parsed, valid, (Prod.mk.inj load).2.symm⟩

theorem validateItem_of_validateItems {items : List (Str × Json)}
    (valid : validateItems items = .ok true) {key : Str} {value : Json} (member : (key, value) ∈ items) :
    validateItem key value = .ok true := by
  induction items with
  | nil => simp at member
  | cons item rest ih =>
    obtain ⟨k, v⟩ := item
    rw [validateItems] at valid
    cases checked : validateItem k v with
    | error e => simp [checked, bind, Except.bind] at valid
    | ok verdict =>
      cases verdict with
      | false => simp [checked, bind, Except.bind, pure, Except.pure] at valid
      | true =>
        rcases List.mem_cons.mp member with same | member
        · cases same
          exact checked
        · exact ih (by simpa [checked, bind, Except.bind] using valid) member

/-- A cgroup list in an accepted document that converts to strings has only valid entries. -/
theorem validCgroup_of_validateItem {key : Str} {value : Json} {l : List Str}
    (named : key = "cgroup_proxy".toList ∨ key = "cgroup_noproxy".toList)
    (valid : validateItem key value = .ok true) (converted : value.getStrings = .ok l) :
    ∀ e ∈ l, validCgroup e = true := by
  cases value with
  | array elems =>
    rw [validateItem, if_pos named, converted] at valid
    have checked : validCgroups l = true := by
      simpa [bind, Except.bind, pure, Except.pure] using valid
    simpa [validCgroups] using checked
  | _ => contradiction

/-- A field keeps its value or takes that of the named member. -/
theorem tryassign_cases {α : Type} (j : Json) (key : String) (convert : Json → Except Exn α) (old : α) :
    tryassign j key convert old = old ∨ ∃ value, j.at? key.toList = .ok value ∧
      convert value = .ok (tryassign j key convert old) := by
  cases found : j.at? key.toList with
  | error _ => exact .inl (by simp only [tryassign, found, Except.bind])
  | ok value =>
    cases converted : convert value with
    | error _ => exact .inl (by simp only [tryassign, found, Except.bind, converted])
    | ok x => exact .inr ⟨value, rfl, by simp only [tryassign, found, Except.bind, converted]⟩

theorem validCgroup_of_tryassign {j : Json} {key : String} {old : List Str}
    (named : key.toList = "cgroup_proxy".toList ∨ key.toList = "cgroup_noproxy".toList)
    (valid : validateItems j.items = .ok true) (before : ∀ e ∈ old, validCgroup e = true) :
    ∀ e ∈ tryassign j key Json.getStrings old, validCgroup e = true := by
  rcases tryassign_cases j key Json.getStrings old with same | ⟨value, found, converted⟩
  · rwa [same]
  · have item := validateItem_of_validateItems valid (Json.mem_items_of_at? found)
    exact validCgroup_of_validateItem named item converted

/-- A cgroup list as a successful load leaves it: valid entries, the reserved slice in front and
nowhere else. -/
structure ReservedFirst (reserved : Str) (l : List Str) : Prop where
  valid : ∀ e ∈ l, validCgroup e = true
  first : ∃ rest, l = reserved :: rest ∧ reserved ∉ rest

theorem ReservedFirst.of_merge {reserved : Str} {l : List Str} (ok : validCgroup reserved = true)
    (valid : ∀ e ∈ l, validCgroup e = true) : ReservedFirst reserved (merge reserved l) where
  valid := by
    intro e member
    rcases List.mem_cons.mp member with rfl | member
    · exact ok
    · exact valid e (List.mem_filter.mp member).1
  first := ⟨_, rfl, by simp⟩

theorem Reached.validCgroups {c : Config} (reached : Reached c) :
    (∀ e ∈ c.cgroupProxy, validCgroup e = true) ∧ ∀ e ∈ c.cgroupNoproxy, validCgroup e = true := by
  induction reached with
  | init => simp
  | @load c host js _ ih =>
    rcases loadFromJsonStr_cases host c js with ⟨r, same, -⟩ | ⟨j, programs, -, valid, done, rfl⟩
    · rw [same]; exact ih
    · rw [done]
      exact ⟨(ReservedFirst.of_merge (by decide) (validCgroup_of_tryassign (.inl rfl) valid ih.1)).valid,
        (ReservedFirst.of_merge (by decide) (validCgroup_of_tryassign (.inr rfl) valid ih.2)).valid⟩

/-- After a successful load both lists start with their reserved slice. -/
theorem Accepted.reserved {c : Config} (accepted : Accepted c) :
    ReservedFirst cgroupProxyPreserved c.cgroupProxy ∧
      ReservedFirst cgroupNoproxyPreserved c.cgroupNoproxy := by
  obtain ⟨before, host, js, reached, load⟩ := accepted
  obtain ⟨proxy, noproxy⟩ := reached.validCgroups
  obtain ⟨j, -, valid, rfl⟩ := exists_of_load load
  exact ⟨.of_merge (by decide) (validCgroup_of_tryassign (.inl rfl) valid proxy),
    .of_merge (by decide) (validCgroup_of_tryassign (.inr rfl) valid noproxy)⟩

/-! ## All valid lists can be configured -/

/-- The document with just the four lists. -/
def listsDocument (programNoproxy programProxy cgroupNoproxy cgroupProxy : List Str) : Json :=
  .object [("cgroup_noproxy".toList, .array (cgroupNoproxy.map .string)),
    ("cgroup_proxy".toList, .array (cgroupProxy.map .string)),
    ("program_noproxy".toList, .array (programNoproxy.map .string)),
    ("program_proxy".toList, .array (programProxy.map .string))]

/-- What a new `Config` becomes with that document, if the programs are real paths. -/
def ofLists (programNoproxy programProxy cgroupNoproxy cgroupProxy : List Str) : Config :=
  mergeReserved { programProxy, programNoproxy, cgroupProxy, cgroupNoproxy }

/-- A host that can parse one text and where every path is a program. -/
def singleHost (js : Str) (j : Json) : Host where
  parse text := if text = js then .ok j else .error .parseError
  dump _ := js
  readFile _ := none
  fileExist _ := true
  bashWhich _ := []
  bashReadlink _ := []

theorem parse_singleHost (js : Str) (j : Json) : (singleHost js j).parse js = .ok j := if_pos rfl

theorem getStrings_map (l : List Str) : (Json.array (l.map .string)).getStrings = .ok l := by
  rw [Json.getStrings]
  induction l with
  | nil => rfl
  | cons s rest ih => simp [List.mapM_cons, ih, Json.getString, bind, Except.bind, pure, Except.pure]

private theorem tryassign_of_at? {j : Json} {key : String} {l : List Str} (old : List Str)
    (found : j.at? key.toList = .ok (.array (l.map .string))) : tryassign j key Json.getStrings old = l := by
  simp only [tryassign, found, Except.bind, getStrings_map]

section Lists

variable {programNoproxy programProxy cgroupNoproxy cgroupProxy : List Str}

theorem validateItems_listsDocument (noproxyValid : ∀ e ∈ cgroupNoproxy, validCgroup e = true)
    (proxyValid : ∀ e ∈ cgroupProxy, validCgroup e = true) :
    validateItems (listsDocument programNoproxy programProxy cgroupNoproxy cgroupProxy).items = .ok true := by
  have noproxyItem : validateItem "cgroup_noproxy".toList (.array (cgroupNoproxy.map .string)) = .ok true := by
    rw [validateItem, if_pos (.inr rfl)]
    simpa [getStrings_map, bind, Except.bind, pure, Except.pure, CgProxy.validCgroups] using noproxyValid
  have proxyItem : validateItem "cgroup_proxy".toList (.array (cgroupProxy.map .string)) = .ok true := by
    rw [validateItem, if_pos (.inl rfl)]
    simpa [getStrings_map, bind, Except.bind, pure, Except.pure, CgProxy.validCgroups] using proxyValid
  have noproxyPrograms (value : Json) : validateItem "program_noproxy".toList value = .ok true := rfl
  have proxyPrograms (value : Json) : validateItem "program_proxy".toList value = .ok true := rfl
  simp only [listsDocument, Json.items, validateItems, noproxyItem, proxyItem, noproxyPrograms, proxyPrograms,
    bind, Except.bind, if_true]

theorem assign_listsDocument :
    assign (listsDocument programNoproxy programProxy cgroupNoproxy cgroupProxy) {} =
      { programProxy, programNoproxy, cgroupProxy, cgroupNoproxy } := by
  have kept {α : Type} (key : String) (convert : Json → Except Exn α) (old : α)
      (other : key.toList ∉ ["cgroup_noproxy".toList, "cgroup_proxy".toList, "program_noproxy".toList,
        "program_proxy".toList]) :
      tryassign (listsDocument programNoproxy programProxy cgroupNoproxy cgroupProxy) key convert old = old := by
    simp only [List.mem_cons, List.not_mem_nil, or_false, not_or] at other
    have missing : (listsDocument programNoproxy programProxy cgroupNoproxy cgroupProxy).at? key.toList =
        .error .jsonOutOfRange := by
      simp only [listsDocument, Json.at?, List.lookup_cons, List.lookup_nil, beq_eq_false_iff_ne.mpr other.1,
        beq_eq_false_iff_ne.mpr other.2.1, beq_eq_false_iff_ne.mpr other.2.2.1,
        beq_eq_false_iff_ne.mpr other.2.2.2]
    simp only [tryassign, missing, Except.bind]
  have programNoproxyGiven (old : List Str) :
      tryassign (listsDocument programNoproxy programProxy cgroupNoproxy cgroupProxy) "program_noproxy"
        Json.getStrings old = programNoproxy := tryassign_of_at? old rfl
  have programProxyGiven (old : List Str) :
      tryassign (listsDocument programNoproxy programProxy cgroupNoproxy cgroupProxy) "program_proxy"
        Json.getStrings old = programProxy := tryassign_of_at? old rfl
  have cgroupNoproxyGiven (old : List Str) :
      tryassign (listsDocument programNoproxy programProxy cgroupNoproxy cgroupProxy) "cgroup_noproxy"
        Json.getStrings old = cgroupNoproxy := tryassign_of_at? old rfl
  have cgroupProxyGiven (old : List Str) :
      tryassign (listsDocument programNoproxy programProxy cgroupNoproxy cgroupProxy) "cgroup_proxy"
        Json.getStrings old = cgroupProxy := tryassign_of_at? old rfl
  simp (disch := decide) only [assign, kept, programNoproxyGiven, programProxyGiven, cgroupNoproxyGiven,
    cgroupProxyGiven]

/-- Absolute names of existing files stay. -/
theorem toRealProgramPath_of_exist {host : Host} {v : List Str}
    (real : ∀ name ∈ v, name.head? = some '/' ∧ host.fileExist name = true) : toRealProgramPath host v = v := by
  induction v with
  | nil => rfl
  | cons name rest ih =>
    have first := real name List.mem_cons_self
    have nonempty : name ≠ [] := by
      rintro rfl
      exact absurd first.1 (by simp)
    have later := ih fun other member => real other (List.mem_cons_of_mem _ member)
    rw [toRealProgramPath] at later ⊢
    rw [List.map_cons, getRealExistPath, if_pos first,
      List.filter_cons_of_pos (by simpa using nonempty), later]

/-- Loading that document into a new `Config`. -/
theorem loadFromJsonStr_listsDocument {host : Host} {js : Str}
    (parsed : host.parse js = .ok (listsDocument programNoproxy programProxy cgroupNoproxy cgroupProxy))
    (present : ∀ path, host.fileExist path = true)
    (absolute : ∀ name ∈ programNoproxy ++ programProxy, name.head? = some '/')
    (noproxyValid : ∀ e ∈ cgroupNoproxy, validCgroup e = true)
    (proxyValid : ∀ e ∈ cgroupProxy, validCgroup e = true) :
    loadFromJsonStr host {} js =
      (.ok Status.success, ofLists programNoproxy programProxy cgroupNoproxy cgroupProxy) := by
  have noproxyReal := toRealProgramPath_of_exist fun name member =>
    ⟨absolute name (List.mem_append_left programProxy member), present name⟩
  have proxyReal := toRealProgramPath_of_exist fun name member =>
    ⟨absolute name (List.mem_append_right programNoproxy member), present name⟩
  simp only [loadFromJsonStr, validateJsonStr, parsed, bind, Except.bind,
    validateItems_listsDocument noproxyValid proxyValid, assign_listsDocument, noproxyReal, proxyReal]
  rfl

theorem accepted_ofLists {host : Host} {js : Str}
    (parsed : host.parse js = .ok (listsDocument programNoproxy programProxy cgroupNoproxy cgroupProxy))
    (present : ∀ path, host.fileExist path = true)
    (absolute : ∀ name ∈ programNoproxy ++ programProxy, name.head? = some '/')
    (noproxyValid : ∀ e ∈ cgroupNoproxy, validCgroup e = true)
    (proxyValid : ∀ e ∈ cgroupProxy, validCgroup e = true) :
    (ofLists programNoproxy programProxy cgroupNoproxy cgroupProxy).Accepted :=
  ⟨{}, host, js, .init, loadFromJsonStr_listsDocument parsed present absolute noproxyValid proxyValid⟩

theorem accepted_single (js : Str) (absolute : ∀ name ∈ programNoproxy ++ programProxy, name.head? = some '/')
    (noproxyValid : ∀ e ∈ cgroupNoproxy, validCgroup e = true)
    (proxyValid : ∀ e ∈ cgroupProxy, validCgroup e = true) :
    (ofLists programNoproxy programProxy cgroupNoproxy cgroupProxy).Accepted := by
  exact accepted_ofLists (parse_singleHost js _) (fun _ => rfl) absolute noproxyValid proxyValid

end Lists

end Config

end CgProxy
