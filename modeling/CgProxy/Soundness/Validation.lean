import CgProxy.Model.Daemon

/-! # What validation lets through

Validation converts the port and the cgroup lists before it knows their kind, so some documents leave
it by an exception, and nothing between `loadFromFile` and the `main` of the daemon catches it.
Assignment converts every value again, each conversion in a `try` of its own, so a document can also be
accepted whose values are dropped or changed.
-/

namespace CgProxy

namespace Json

/-- What `get<int>()` accepts. -/
def isNumeric : Json → Bool
  | .numberInteger _ | .numberUnsigned _ | .numberFloat _ | .boolean _ => true
  | _ => false

/-- An array with an element that is no string. -/
def isMixed : Json → Bool
  | .array elems => elems.any fun e => !e.isString
  | _ => false

theorem exists_getInt_iff {value : Json} : (∃ i, value.getInt = .ok i) ↔ value.isNumeric = true := by
  cases value <;> simp [getInt, isNumeric]

theorem exists_getStrings_iff {elems : List Json} :
    (∃ l, (array elems).getStrings = .ok l) ↔ (array elems).isMixed = false := by
  rw [getStrings, isMixed]
  induction elems with
  | nil => simp [pure, Except.pure]
  | cons value rest ih =>
    cases value with
    | string s =>
      have later : (∃ l, (string s :: rest).mapM getString = .ok l) ↔ ∃ l, rest.mapM getString = .ok l := by
        rw [List.mapM_cons]
        cases rest.mapM getString <;> simp [getString, bind, Except.bind, pure, Except.pure]
      rw [later, ih]
      simp [isString]
    | _ => simp [List.mapM_cons, getString, isString, bind, Except.bind]

/-- The number that a value is. -/
def number? : Json → Option ℚ
  | .numberInteger i => some i
  | .numberUnsigned n => some n
  | .numberFloat q => some q
  | _ => none

/-- The number is one that an `int` can hold. -/
def isInt32 : Json → Bool
  | .numberInteger i => decide (-2 ^ 31 ≤ i ∧ i < 2 ^ 31)
  | .numberUnsigned n => decide (n < 2 ^ 31)
  | .numberFloat q => decide (q.den = 1 ∧ -2 ^ 31 ≤ q.num ∧ q.num < 2 ^ 31)
  | _ => false

theorem toInt32_eq_iff {i : ℤ} : toInt32 i = i ↔ -2 ^ 31 ≤ i ∧ i < 2 ^ 31 := by
  rw [toInt32, Int.bmod_def]
  norm_num
  split <;> omega

theorem truncInt32_eq_iff {q : ℚ} : (truncInt32 q : ℚ) = q ↔ q.den = 1 ∧ -2 ^ 31 ≤ q.num ∧ q.num < 2 ^ 31 := by
  constructor
  · intro same
    have range (t : ℤ) : -2 ^ 31 ≤ (if -2 ^ 31 ≤ t ∧ t < 2 ^ 31 then t else (-2 ^ 31 : ℤ)) ∧
        (if -2 ^ 31 ≤ t ∧ t < 2 ^ 31 then t else (-2 ^ 31 : ℤ)) < 2 ^ 31 := by
      split <;> omega
    have bounds := range (if q < 0 then ⌈q⌉ else ⌊q⌋)
    rw [← same]
    exact ⟨Rat.den_intCast _, by rw [Rat.num_intCast]; exact bounds.1, by rw [Rat.num_intCast]; exact bounds.2⟩
  · rintro ⟨whole, low, high⟩
    have integral : q = (q.num : ℚ) := (Rat.den_eq_one_iff q).mp whole |>.symm
    have trunc : (if q < 0 then ⌈q⌉ else ⌊q⌋) = q.num := by
      rw [integral]
      split <;> simp
    rw [truncInt32]
    simp only [trunc, low, high, and_self, if_true]
    exact integral.symm

/-- A number arrives unchanged if it fits, and only then. -/
theorem number?_eq_getInt_iff {value : Json} :
    (∃ i, value.getInt = .ok i ∧ value.number? = some (i : ℚ)) ↔ value.isInt32 = true := by
  have only {r : ℤ} {q : ℚ} :
      (∃ i, Except.ok r = (Except.ok i : Except Exn ℤ) ∧ some q = some (i : ℚ)) ↔ (r : ℚ) = q := by
    constructor
    · rintro ⟨i, same, number⟩
      cases same
      exact (Option.some.inj number).symm
    · rintro rfl
      exact ⟨r, rfl, rfl⟩
  cases value with
  | numberInteger i => exact only.trans (Int.cast_inj.trans (toInt32_eq_iff.trans decide_eq_true_iff.symm))
  | numberUnsigned n =>
    have number : ((n : ℕ) : ℚ) = ((n : ℤ) : ℚ) := (Int.cast_natCast n).symm
    have fits : (n : ℤ) < 2 ^ 31 ↔ n < 2 ^ 31 := by norm_cast
    have whole : (toInt32 n : ℚ) = (n : ℚ) ↔ n < 2 ^ 31 := by
      rw [number, Int.cast_inj, toInt32_eq_iff, fits]
      omega
    exact only.trans (whole.trans decide_eq_true_iff.symm)
  | numberFloat q => exact only.trans (truncInt32_eq_iff.trans decide_eq_true_iff.symm)
  | _ => simp [getInt, number?, isInt32]

end Json

namespace Config

/-! ## Exceptions -/

/-- The items at which validation throws. -/
def Throws (item : Str × Json) : Prop :=
  (item.1 = "cgroup_proxy".toList ∨ item.1 = "cgroup_noproxy".toList) ∧ item.2.isMixed = true ∨
    item.1 = "port".toList ∧ item.2.isNumeric = false

/-- No item throws that validation comes to. -/
def Survivable (j : Json) : Prop :=
  ∀ before item after, j.items = before ++ item :: after →
    (∀ b ∈ before, validateItem b.1 b.2 = .ok true) → ¬ Throws item

/-- A pure step after a conversion fails only with it. -/
private theorem exists_map_iff {α β : Type} {conversion : Except Exn α} {f : α → β} :
    (∃ y, (do return f (← conversion)) = Except.ok y) ↔ ∃ x, conversion = .ok x := by
  cases conversion <;> simp [bind, Except.bind, pure, Except.pure]

theorem exists_validateItem_iff (key : Str) (value : Json) :
    (∃ verdict, validateItem key value = .ok verdict) ↔ ¬ Throws (key, value) := by
  by_cases cgroups : key = "cgroup_proxy".toList ∨ key = "cgroup_noproxy".toList
  · have other : key ≠ "port".toList := by rcases cgroups with rfl | rfl <;> decide
    have mixed : Throws (key, value) ↔ value.isMixed = true := by
      simp only [Throws, cgroups, other, true_and, false_and, or_false]
    unfold validateItem
    rw [if_pos cgroups, mixed, Bool.not_eq_true]
    cases value with
    | array elems => exact exists_map_iff.trans Json.exists_getStrings_iff
    | _ => simp [Json.isMixed]
  · unfold validateItem
    rw [if_neg cgroups]
    by_cases port : key = "port".toList
    · have text : Throws (key, value) ↔ value.isNumeric = false := by
        simp only [Throws, cgroups, iff_true_intro port, true_and, false_and, false_or]
      rw [if_pos port, text, Bool.not_eq_false]
      exact exists_map_iff.trans Json.exists_getInt_iff
    · have calm : ¬ Throws (key, value) := by
        simp only [Throws, cgroups, port, false_and, or_false, not_false_iff]
      rw [if_neg port]
      refine iff_of_true ?_ calm
      split <;> exact ⟨_, rfl⟩

/-- What holds of every element with good ones before it, of the first element and of the rest. -/
private theorem forall_split_cons_iff {α : Type} {P good : α → Prop} {a : α} {l : List α} :
    (∀ before x after, a :: l = before ++ x :: after → (∀ b ∈ before, good b) → P x) ↔
      P a ∧ (good a → ∀ before x after, l = before ++ x :: after → (∀ b ∈ before, good b) → P x) := by
  constructor
  · intro all
    refine ⟨all [] a l rfl (fun _ member => absurd member List.not_mem_nil), fun first before x after shape later => ?_⟩
    exact all (a :: before) x after (by rw [shape]; rfl) (List.forall_mem_cons.mpr ⟨first, later⟩)
  · rintro ⟨own, rest⟩ before x after shape later
    cases before with
    | nil =>
      cases shape
      exact own
    | cons b before =>
      cases shape
      exact rest (later a List.mem_cons_self) before x after rfl fun c member => later c (List.mem_cons_of_mem _ member)

theorem exists_validateItems_iff (items : List (Str × Json)) :
    (∃ verdict, validateItems items = .ok verdict) ↔
      ∀ before item after, items = before ++ item :: after →
        (∀ b ∈ before, validateItem b.1 b.2 = .ok true) → ¬ Throws item := by
  induction items with
  | nil => simp [validateItems]
  | cons first rest ih =>
    obtain ⟨key, value⟩ := first
    rw [forall_split_cons_iff, ← ih, ← exists_validateItem_iff]
    cases checked : validateItem key value with
    | error e => simp [validateItems, checked, bind, Except.bind]
    | ok verdict => cases verdict <;> simp [validateItems, checked, bind, Except.bind, pure, Except.pure]

theorem exists_loadFromJsonStr_iff (host : Host) (c : Config) (js : Str) :
    (∃ status, (loadFromJsonStr host c js).1 = .ok status) ↔
      ∃ j, host.parse js = .ok j ∧ Survivable j := by
  cases parsed : host.parse js with
  | error e => simp [loadFromJsonStr, validateJsonStr, parsed, bind, Except.bind]
  | ok j =>
    have only : (∃ other, Except.ok j = (Except.ok other : Except Exn Json) ∧ Survivable other) ↔ Survivable j := by
      simp
    rw [only, Survivable, ← exists_validateItems_iff]
    simp only [loadFromJsonStr, validateJsonStr, parsed, bind, Except.bind]
    cases validateItems j.items with
    | error e => simp
    | ok verdict => cases verdict <;> simp

/-- The file cannot be opened, or is a document at which validation does not throw. -/
def Readable (host : Host) (f : Str) : Prop :=
  host.readFile f = none ∨ ∃ js j, host.readFile f = some js ∧ host.parse js = .ok j ∧ Survivable j

theorem exists_loadFromFile_iff (host : Host) (c : Config) (f : Str) :
    (∃ status, (loadFromFile host c f).1 = .ok status) ↔ Readable host f := by
  rw [loadFromFile, Readable]
  cases content : host.readFile f with
  | none => simp
  | some js => simp [exists_loadFromJsonStr_iff]

/-- Loading a file ends with a status, and so does the start of the daemon with it, exactly when the
file cannot be opened or is one that validation comes through. -/
theorem file_status_iff (host : Host) (c : Config) (f : Str) (d : Daemon) :
    ((∃ status, (loadFromFile host c f).1 = .ok status) ↔ Readable host f) ∧
      ((∃ status, (Daemon.start host f d).1 = .ok status) ↔ Readable host f) := by
  refine ⟨exists_loadFromFile_iff host c f, ?_⟩
  rw [← exists_loadFromFile_iff host d.config f, Daemon.start]
  cases loaded : loadFromFile host d.config f with
  | mk result c =>
    cases result with
    | error e => simp
    | ok status =>
      refine iff_of_true ?_ ⟨status, rfl⟩
      dsimp only
      split <;> exact ⟨_, rfl⟩

/-- A port between quotes. -/
def quotedPort : Json := .object [("port".toList, .string "1080".toList)]

theorem file_status_quotedPort :
    let host := { singleHost [] quotedPort with readFile := fun _ => some [] }
    (loadFromFile host {} []).1 = .error .typeError ∧
      ∀ d, d.config = {} → (Daemon.start host [] d).1 = .error .typeError := by
  intro host
  have thrown : loadFromFile host {} [] = (.error .typeError, {}) := by decide +kernel
  refine ⟨congrArg Prod.fst thrown, fun d fresh => ?_⟩
  rw [Daemon.start, fresh, thrown]

/-! ## Effect -/

/-- What the document has under the key, if anything. -/
def Given (j : Json) (key : String) (P : Json → Prop) : Prop := ∀ value, j.at? key.toList = .ok value → P value

/-- The document is an object of known keys, and each of its values is that of its field. -/
structure TakesEffect (host : Host) (j : Json) (c : Config) : Prop where
  object : ∃ members, j = .object members
  known : ∀ key value, j.at? key = .ok value → key = "comment".toList ∨ key ∈ c.members.map Prod.fst
  programProxy : Given j "program_proxy" fun v =>
    ∃ l, v = .array (l.map .string) ∧ c.programProxy = toRealProgramPath host l
  programNoproxy : Given j "program_noproxy" fun v =>
    ∃ l, v = .array (l.map .string) ∧ c.programNoproxy = toRealProgramPath host l
  cgroupProxy : Given j "cgroup_proxy" fun v =>
    ∃ l, v = .array (l.map .string) ∧ c.cgroupProxy = merge cgroupProxyPreserved l
  cgroupNoproxy : Given j "cgroup_noproxy" fun v =>
    ∃ l, v = .array (l.map .string) ∧ c.cgroupNoproxy = merge cgroupNoproxyPreserved l
  enableGateway : Given j "enable_gateway" fun v => v = .boolean c.enableGateway
  port : Given j "port" fun v => v.number? = some (c.port : ℚ)
  enableDns : Given j "enable_dns" fun v => v = .boolean c.enableDns
  enableTcp : Given j "enable_tcp" fun v => v = .boolean c.enableTcp
  enableUdp : Given j "enable_udp" fun v => v = .boolean c.enableUdp
  enableIpv4 : Given j "enable_ipv4" fun v => v = .boolean c.enableIpv4
  enableIpv6 : Given j "enable_ipv6" fun v => v = .boolean c.enableIpv6
  table : Given j "table" fun v => v.number? = some (c.table : ℚ)
  fwmark : Given j "fwmark" fun v => v.number? = some (c.fwmark : ℚ)
  markNewin : Given j "mark_newin" fun v => v.number? = some (c.markNewin : ℚ)

/-- The document is an object whose lists are lists of strings and whose numbers fit an `int`. -/
structure WellTyped (j : Json) : Prop where
  object : ∃ members, j = .object members
  lists : ∀ key ∈ ["program_proxy", "program_noproxy", "cgroup_proxy", "cgroup_noproxy"],
    Given j key fun v => ∃ l : List Str, v = .array (l.map .string)
  numbers : ∀ key ∈ ["port", "table", "fwmark", "mark_newin"], Given j key fun v => v.isInt32 = true

section Effect

variable {j value : Json} {key : String}

theorem tryassign_of_ok {α : Type} {convert : Json → Except Exn α} {x : α} (old : α)
    (found : j.at? key.toList = .ok value) (converted : convert value = .ok x) :
    tryassign j key convert old = x := by
  simp only [tryassign, found, Except.bind, converted]

theorem given_list_iff {field old : List Str} (resolve : List Str → List Str)
    (assigned : field = resolve (tryassign j key Json.getStrings old)) :
    (Given j key fun v => ∃ l, v = .array (l.map .string) ∧ field = resolve l) ↔
      Given j key fun v => ∃ l : List Str, v = .array (l.map .string) := by
  refine forall_congr' fun value => forall_congr' fun found => exists_congr fun l => and_iff_left_of_imp ?_
  rintro rfl
  rw [assigned, tryassign_of_ok old found (getStrings_map l)]

theorem given_number_iff {field old : ℤ} (assigned : field = tryassign j key Json.getInt old) :
    (Given j key fun v => v.number? = some (field : ℚ)) ↔ Given j key fun v => v.isInt32 = true := by
  refine forall_congr' fun value => forall_congr' fun found => ?_
  dsimp only
  rw [← Json.number?_eq_getInt_iff]
  constructor
  · intro number
    cases converted : value.getInt with
    | ok i =>
      rw [assigned, tryassign_of_ok old found converted] at number
      exact ⟨i, rfl, number⟩
    | error e => cases value <;> cases converted <;> cases number
  · rintro ⟨i, converted, number⟩
    rw [assigned, tryassign_of_ok old found converted, number]

theorem given_boolean {field old : Bool} (flag : key.toList ∈ boolset)
    (valid : validateItems j.items = .ok true) (assigned : field = tryassign j key Json.getBool old) :
    Given j key fun v => v = .boolean field := by
  intro value found
  have item := validateItem_of_validateItems valid (Json.mem_items_of_at? found)
  have plain : ∀ k ∈ boolset, ¬ (k = "cgroup_proxy".toList ∨ k = "cgroup_noproxy".toList) ∧ k ≠ "port".toList := by
    decide +kernel
  unfold validateItem at item
  rw [if_neg (plain _ flag).1, if_neg (plain _ flag).2, if_pos flag] at item
  cases value with
  | boolean b => rw [assigned, tryassign_of_ok old found rfl]
  | _ => cases item

theorem known_of_valid (c : Config) (valid : validateItems j.items = .ok true) {key : Str}
    (found : j.at? key = .ok value) : key = "comment".toList ∨ key ∈ c.members.map Prod.fst := by
  have item := validateItem_of_validateItems valid (Json.mem_items_of_at? found)
  have names : c.members.map Prod.fst = ({} : Config).members.map Prod.fst := rfl
  have all : ∀ k ∈ "cgroup_proxy".toList :: "cgroup_noproxy".toList :: "port".toList :: (boolset ++ allowset),
      k = "comment".toList ∨ k ∈ ({} : Config).members.map Prod.fst := by decide +kernel
  rw [names]
  refine all key ?_
  unfold validateItem at item
  split_ifs at item with cgroups port flag
  · rcases cgroups with rfl | rfl <;> simp
  · simp [port]
  · simp [flag]
  · have free : key ∈ allowset := by simpa using item
    simp [free]

/-- A document that loads takes effect as it is written exactly when it is well typed. -/
theorem takes_effect_iff (host : Host) (c c' : Config) (js : Str) (j : Json) (parsed : host.parse js = .ok j)
    (loaded : loadFromJsonStr host c js = (.ok Status.success, c')) : TakesEffect host j c' ↔ WellTyped j := by
  obtain ⟨other, parsed', valid, rfl⟩ := exists_of_load loaded
  obtain rfl : j = other := Except.ok.inj (parsed.symm.trans parsed')
  constructor
  · intro effect
    refine ⟨effect.object, ?_, ?_⟩
    · simp only [List.mem_cons, List.not_mem_nil, or_false]
      rintro key (rfl | rfl | rfl | rfl)
      · exact (given_list_iff (toRealProgramPath host) rfl).mp effect.programProxy
      · exact (given_list_iff (toRealProgramPath host) rfl).mp effect.programNoproxy
      · exact (given_list_iff (merge cgroupProxyPreserved) rfl).mp effect.cgroupProxy
      · exact (given_list_iff (merge cgroupNoproxyPreserved) rfl).mp effect.cgroupNoproxy
    · simp only [List.mem_cons, List.not_mem_nil, or_false]
      rintro key (rfl | rfl | rfl | rfl)
      · exact (given_number_iff rfl).mp effect.port
      · exact (given_number_iff rfl).mp effect.table
      · exact (given_number_iff rfl).mp effect.fwmark
      · exact (given_number_iff rfl).mp effect.markNewin
  · rintro ⟨object, lists, numbers⟩
    exact {
      object
      known := fun key value => known_of_valid _ valid
      programProxy := (given_list_iff (toRealProgramPath host) rfl).mpr (lists _ (by simp))
      programNoproxy := (given_list_iff (toRealProgramPath host) rfl).mpr (lists _ (by simp))
      cgroupProxy := (given_list_iff (merge cgroupProxyPreserved) rfl).mpr (lists _ (by simp))
      cgroupNoproxy := (given_list_iff (merge cgroupNoproxyPreserved) rfl).mpr (lists _ (by simp))
      enableGateway := given_boolean (by decide) valid rfl
      port := (given_number_iff rfl).mpr (numbers _ (by simp))
      enableDns := given_boolean (by decide) valid rfl
      enableTcp := given_boolean (by decide) valid rfl
      enableUdp := given_boolean (by decide) valid rfl
      enableIpv4 := given_boolean (by decide) valid rfl
      enableIpv6 := given_boolean (by decide) valid rfl
      table := (given_number_iff rfl).mpr (numbers _ (by simp))
      fwmark := (given_number_iff rfl).mpr (numbers _ (by simp))
      markNewin := (given_number_iff rfl).mpr (numbers _ (by simp)) }

end Effect

theorem takes_effect_lists :
    TakesEffect (singleHost [] (listsDocument [] ["/usr/bin/a".toList] [] ["/user.slice".toList]))
        (listsDocument [] ["/usr/bin/a".toList] [] ["/user.slice".toList])
        (ofLists [] ["/usr/bin/a".toList] [] ["/user.slice".toList]) ↔
      WellTyped (listsDocument [] ["/usr/bin/a".toList] [] ["/user.slice".toList]) :=
  takes_effect_iff (singleHost [] (listsDocument [] ["/usr/bin/a".toList] [] ["/user.slice".toList])) {} _ [] _ rfl
    (by decide +kernel)

/-- A cgroup by itself instead of in an array, which validation checks and assignment drops. -/
def bareCgroup : Json := .object [("cgroup_proxy".toList, .string "/user.slice".toList)]

theorem takes_effect_bareCgroup :
    loadFromJsonStr (singleHost [] bareCgroup) {} [] = (.ok Status.success, mergeReserved {}) ∧
      ¬ TakesEffect (singleHost [] bareCgroup) bareCgroup (mergeReserved {}) := by
  refine ⟨?_, fun effect => ?_⟩
  · decide +kernel
  · obtain ⟨l, array, -⟩ := effect.cgroupProxy _ rfl
    cases array

end Config

end CgProxy
