import CgProxy.Model.Config
import CgProxy.Model.Kernel
import Mathlib.Data.Finset.Insert

/-! # The script `cgroup-tproxy.sh`

The shell reads its parameters from the environment, splits the two cgroup variables at colons,
keeps the entries whose directory exists, and issues its commands one by one without looking at
their results. `Script.start` is the script without arguments, `Script.stop` the one with `stop`.
The command sequences are data (`startFamily`, `stopFamily`), so that what they do to a table is a
fact about lists of edits.

Pathname expansion is left out: it acts on `*`, `?` and `[` only, none of which a validated entry
contains. So are the messages.
-/

namespace CgProxy

open Netfilter

namespace Script

/-! ## Parameters -/

/-- The variables of the script, after its defaults. -/
structure Params where
  port : ℤ
  enableDns : Bool
  enableUdp : Bool
  enableTcp : Bool
  enableIpv4 : Bool
  enableIpv6 : Bool
  enableGateway : Bool
  tableReroute : ℤ
  tableTproxy : ℤ
  fwmarkReroute : ℤ
  fwmarkTproxy : ℤ
deriving DecidableEq

def params (env : Env) : Params :=
  let table := env.table.getD 10007
  let fwmark := env.fwmark.getD 0x9973
  { port := env.port.getD 12345
    enableDns := env.enableDns.getD true
    enableUdp := env.enableUdp.getD true
    enableTcp := env.enableTcp.getD true
    enableIpv4 := env.enableIpv4.getD true
    enableIpv6 := env.enableIpv6.getD true
    enableGateway := env.enableGateway.getD false
    tableReroute := env.tableReroute.getD table
    tableTproxy := env.tableTproxy.getD table
    fwmarkReroute := env.fwmarkReroute.getD fwmark
    fwmarkTproxy := env.fwmarkTproxy.getD fwmark }

def Params.enableFamily (prm : Params) : Family → Bool
  | .ipv4 => prm.enableIpv4
  | .ipv6 => prm.enableIpv6

/-- The mount point, by default the first one `findmnt` shows. Empty when there is none. -/
def cgroupMountPoint (env : Env) (k : Kernel) : Str :=
  env.cgroupMountPoint.getD (k.mounts.head?.getD [])

/-! ## Words -/

/-- `IFS=':' read -r -a` from a here-string: the fields of the first line, where a separator at the
end of the line ends the last field instead of opening another. -/
def bashReadArray (text : Str) : List Str :=
  let fields := (text.takeWhile (· ≠ '\n')).splitOn ':'
  if fields.getLast? = some [] then fields.dropLast else fields

def blank (c : Char) : Bool := c = ' ' || c = '\t' || c = '\n'

/-- An unquoted expansion. -/
def words (text : Str) : List Str := (text.splitOnP blank).filter (· ≠ [])

/-- The array one of the cgroup variables becomes. -/
def cgroupArray (var : Option Str) (default : Str) : List Str :=
  match var with
  | none => [default]
  | some text => bashReadArray text

/-- The filter loop. It leaves one string with the kept entries, which the rule loops split again. -/
def keepExisting (h : Hierarchy) (array : List Str) : List Str :=
  words ([' '].intercalate ((array.flatMap words).filter h.dirExist))

/-- A word that an expansion leaves whole. -/
def Plain (e : Str) : Prop := e ≠ [] ∧ ∀ c ∈ e, blank c = false

theorem words_of_plain {e : Str} (plain : Plain e) : words e = [e] := by
  rw [words, List.splitOnP_eq_singleton plain.2]
  simp [plain.1]

theorem words_append_blank {c : Char} (separates : blank c = true) (x y : Str) :
    words (x ++ c :: y) = words x ++ words y := by
  rw [words, List.splitOnP_append_cons x y separates, List.filter_append]
  rfl

/-- Splitting a string joined with blanks gives the words back. -/
theorem words_intercalate {l : List Str} (plain : ∀ e ∈ l, Plain e) :
    words ([' '].intercalate l) = l := by
  induction l with
  | nil => rfl
  | cons e rest ih =>
    have later := ih fun other member => plain other (List.mem_cons_of_mem _ member)
    cases rest with
    | nil => simpa using words_of_plain (plain e List.mem_cons_self)
    | cons d rest =>
      rw [List.intercalate_cons_cons, List.append_assoc, List.singleton_append,
        words_append_blank rfl, words_of_plain (plain e List.mem_cons_self), later, List.singleton_append]

/-- On plain words the filter loop is a filter. -/
theorem keepExisting_eq {h : Hierarchy} {array : List Str} (plain : ∀ e ∈ array, Plain e) :
    keepExisting h array = array.filter h.dirExist := by
  have whole : array.flatMap words = array := by
    induction array with
    | nil => rfl
    | cons e rest ih =>
      rw [List.flatMap_cons, words_of_plain (plain e List.mem_cons_self),
        ih fun other member => plain other (List.mem_cons_of_mem _ member), List.singleton_append]
  rw [keepExisting, whole, words_intercalate]
  exact fun e member => plain e (List.mem_filter.mp member).1

/-! ## Rules -/

def onIp : Family → Str
  | .ipv4 => "127.0.0.1".toList
  | .ipv6 => "::1".toList

def entRules (f : Family) (prm : Params) : List Rule :=
  [⟨[.socket], .act (.setMark prm.fwmarkTproxy)⟩,
    ⟨[.socket], .stop .accept⟩,
    ⟨[.proto .tcp], .stop (.tproxy (onIp f) prm.port prm.fwmarkTproxy)⟩,
    ⟨[.proto .udp], .stop (.tproxy (onIp f) prm.port prm.fwmarkTproxy)⟩]

/-- The three rules that pick the traffic to divert, one for each enabled kind. -/
def protoRules (prm : Params) (target : Target Chain Action) : List Rule :=
  (if prm.enableDns then [⟨[.proto .udp, .dport 53], target⟩] else []) ++
    (if prm.enableUdp then [⟨[.proto .udp], target⟩] else []) ++
    (if prm.enableTcp then [⟨[.proto .tcp], target⟩] else [])

def preGuards (prm : Params) : List Rule :=
  [⟨[.dstType .localAddr], .ret⟩, ⟨[.notDstType .unicast], .ret⟩] ++
    if prm.enableGateway then [] else [⟨[.notSrcType .localAddr], .ret⟩]

def preRules (prm : Params) : List Rule := preGuards prm ++ protoRules prm (.jump .tproxyEnt)

def markRules (prm : Params) : List Rule :=
  ⟨[.notDstType .unicast], .ret⟩ :: protoRules prm (.act (.setMark prm.fwmarkReroute))

def cgroupRules (target : Target Chain Action) (cgroups : List Str) : List Rule :=
  cgroups.map fun cg => ⟨[.cgroupPath cg], target⟩

/-- The rules for the cgroups that exist. -/
def outCgroupRules (noproxy proxy : List Str) : List Rule :=
  cgroupRules .ret noproxy ++ cgroupRules (.jump .tproxyMark) proxy

def outRules (noproxy proxy : List Str) : List Rule :=
  ⟨[.ctdirReply], .ret⟩ :: outCgroupRules noproxy proxy

def preHook : Rule := ⟨[], .jump .tproxyPre⟩

def outHook : Rule := ⟨[], .jump .tproxyOut⟩

/-- Only private IPv6 addresses are masqueraded. -/
def masquerade : Family → Rule
  | .ipv4 => ⟨[.other "-m owner ! --socket-exists".toList], .stop .masquerade⟩
  | .ipv6 =>
      ⟨[.other "-m owner ! --socket-exists".toList, .other "-s fc00::/7".toList], .stop .masquerade⟩

/-! ## Starting -/

def buildChain (c : Chain) (rs : List Rule) : List NetCommand :=
  .mangle (.newChain c) :: rs.map fun r => .mangle (.append c r)

/-- The commands of one family, up to the gateway. -/
def startFamily (f : Family) (prm : Params) (noproxy proxy : List Str) : List NetCommand :=
  [.ruleAdd prm.fwmarkTproxy prm.tableTproxy, .routeAdd prm.tableTproxy] ++
    buildChain .tproxyEnt (entRules f prm) ++
    buildChain .tproxyPre (preRules prm) ++
    [.mangle (.append .prerouting preHook)] ++
    (if prm.fwmarkReroute ≠ prm.fwmarkTproxy then
      [.ruleAdd prm.fwmarkReroute prm.tableReroute, .routeAdd prm.tableReroute] else []) ++
    buildChain .tproxyMark (markRules prm) ++
    buildChain .tproxyOut (outRules noproxy proxy) ++
    (if prm.enableFamily f then [.mangle (.append .output outHook)] else [])

def startCommands (prm : Params) (noproxy proxy : List Str) : List Command :=
  (startFamily .ipv4 prm noproxy proxy).map (.net .ipv4) ++
    (startFamily .ipv6 prm noproxy proxy).map (.net .ipv6) ++
    if prm.enableGateway then
      [.net .ipv4 (.nat (.append .postrouting (masquerade .ipv4))),
        .net .ipv6 (.nat (.append .postrouting (masquerade .ipv6))), .sysctl .ipv4, .sysctl .ipv6]
    else []

/-- `test -d $path || mkdir $path`. -/
def ensureDir (h : Hierarchy) (path : Str) : Option Hierarchy :=
  if h.dirExist path then some h else h.mkdir path

/-- Both first directories, or the hierarchy the script gives up with. -/
def ensureFirst (h : Hierarchy) (proxy noproxy : List Str) : Except Hierarchy Hierarchy :=
  match ensureDir h (proxy.head?.getD []) with
  | none => .error h
  | some h =>
      match ensureDir h (noproxy.head?.getD []) with
      | none => .error h
      | some h => .ok h

/-- The script without arguments. -/
def start (env : Env) (k : Kernel) : Kernel :=
  let prm := params env
  let proxy := cgroupArray env.cgroupProxy cgroupProxyPreserved
  let noproxy := cgroupArray env.cgroupNoproxy cgroupNoproxyPreserved
  let target := cgroupMountPoint env k
  if target = [] then k
  else
    let k := if target ∈ k.mounts then k else k.runAll [.mount target]
    if target ∉ k.mounts then k
    else
      match ensureFirst k.hierarchy proxy noproxy with
      | .error h => { k with hierarchy := h }
      | .ok h =>
          { k with hierarchy := h }.runAll
            (startCommands prm (keepExisting h noproxy) (keepExisting h proxy))

/-! ## Stopping -/

/-- The order in which a family's chains are flushed and then removed. -/
def stopOrder : Family → List Chain
  | .ipv4 => [.tproxyPre, .tproxyEnt, .tproxyOut, .tproxyMark]
  | .ipv6 => [.tproxyPre, .tproxyOut, .tproxyEnt, .tproxyMark]

def stopFamily (f : Family) (prm : Params) : List NetCommand :=
  [.mangle (.delete .prerouting preHook), .mangle (.delete .output outHook)] ++
    (stopOrder f).map (fun c => .mangle (.flush c)) ++
    (stopOrder f).map (fun c => .mangle (.deleteChain c)) ++
    [.ruleDelete prm.fwmarkTproxy prm.tableTproxy, .ruleDelete prm.fwmarkReroute prm.tableReroute,
      .routeFlush prm.tableTproxy, .routeFlush prm.tableReroute]

def stopCommands (prm : Params) : List Command :=
  (stopFamily .ipv4 prm).map (.net .ipv4) ++ (stopFamily .ipv6 prm).map (.net .ipv6) ++
    [.net .ipv4 (.nat (.delete .postrouting (masquerade .ipv4))),
      .net .ipv6 (.nat (.delete .postrouting (masquerade .ipv6)))]

/-- The script with `stop`. It does nothing unless the IPv4 chain TPROXY_ENT exists. -/
def stop (env : Env) (k : Kernel) : Kernel :=
  if .tproxyEnt ∉ (k.tables .ipv4).mangle.chains then k
  else
    let target := cgroupMountPoint env k
    let k := k.runAll (stopCommands (params env))
    if target ∈ k.mounts then k.runAll [.umount target] else k

/-- What it does to the tables when it finds that chain. -/
theorem stop_tables {env : Env} {k : Kernel} (present : .tproxyEnt ∈ (k.tables .ipv4).mangle.chains) :
    (stop env k).tables = (k.runAll (stopCommands (params env))).tables := by
  rw [stop, if_neg (not_not_intro present)]
  dsimp only
  split
  · exact Kernel.tables_umount ..
  · rfl

end Script

end CgProxy
