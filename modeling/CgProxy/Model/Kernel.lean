import CgProxy.Netfilter.Walk
import CgProxy.Model.Common

/-! # The kernel state the scripts edit

For each address family: the mangle and nat tables, the policy routing rules and the routes, and whether
the machine forwards. Next to them the cgroup2 mount and the directories of the cgroup hierarchy. Rules,
routes and chains of other software are opaque data that the same commands carry along. A command that
the kernel would refuse answers `none`.

Commands of one family touch only the tables of that family, and within it each command touches
one of the four components; `Kernel.runAll_tables` and `FamilyTables.runAll_eq` split a script
accordingly.
-/

namespace CgProxy

open Netfilter

inductive Family where
  | ipv4
  | ipv6
deriving DecidableEq, Repr

/-! ## Packets and rules -/

inductive Proto where
  | tcp
  | udp
  | other (number : ℕ)
deriving DecidableEq, Repr

/-- The types of `-m addrtype`; every address has one. -/
inductive AddrType where
  | unspec
  | unicast
  | localAddr
  | broadcast
  | anycast
  | multicast
  | blackhole
  | unreachable
  | prohibit
deriving DecidableEq, Repr

/-- What the rules can see of a packet. A forwarded packet has no local socket and thus no cgroup.
`others` are the conditions of other software that hold of it. -/
structure Packet where
  family : Family
  proto : Proto
  dport : ℕ
  reply : Bool
  dstType : AddrType
  srcType : AddrType
  cgroup : Option CgPath
  socket : Bool
  mark : ℤ
  others : List Str := []
deriving DecidableEq

inductive Chain where
  | prerouting
  | output
  | postrouting
  | tproxyEnt
  | tproxyPre
  | tproxyMark
  | tproxyOut
  | other (name : Str)
deriving DecidableEq, Repr

inductive Condition where
  | ctdirReply
  | cgroupPath (path : Str)
  | dstType (t : AddrType)
  | notDstType (t : AddrType)
  | notSrcType (t : AddrType)
  | proto (q : Proto)
  | dport (port : ℕ)
  | socket
  | other (spec : Str)
deriving DecidableEq, Repr

inductive Action where
  | accept
  | setMark (value : ℤ)
  | tproxy (onIp : Str) (onPort : ℤ) (mark : ℤ)
  | masquerade
  | other (spec : Str)
deriving DecidableEq, Repr

abbrev Rule := Netfilter.Rule Chain Condition Action

def Condition.holds (p : Packet) : Condition → Bool
  | ctdirReply => p.reply
  | cgroupPath path => p.cgroup.any fun cg => cg.under path
  | dstType t => p.dstType = t
  | notDstType t => p.dstType ≠ t
  | notSrcType t => p.srcType ≠ t
  | proto q => p.proto = q
  | dport port => p.dport = port
  | socket => p.socket
  | other spec => spec ∈ p.others

def Action.perform (p : Packet) : Action → Packet
  | .setMark value => { p with mark := value }
  | .tproxy _ _ mark => { p with mark := mark }
  | .accept | .masquerade | .other _ => p

/-- The netfilter semantics of the conditions and targets the script uses. -/
def netfilter : Semantics Condition Action Packet where
  holds c p := c.holds p
  perform a p := a.perform p

/-! ## The tables of one family -/

inductive IpRule where
  | fwmark (mark table : ℤ)
  | other (spec : Str)
deriving DecidableEq, Repr

inductive Route where
  | localDefault
  | other (spec : Str)
deriving DecidableEq, Repr

/-- Routes are listed with their table. -/
structure FamilyTables where
  mangle : Ruleset Chain Rule
  nat : Ruleset Chain Rule
  rules : List IpRule
  routes : List (ℤ × Route)
deriving DecidableEq

inductive NetCommand where
  | mangle (e : Edit Chain Rule)
  | nat (e : Edit Chain Rule)
  | ruleAdd (mark table : ℤ)
  | ruleDelete (mark table : ℤ)
  | routeAdd (table : ℤ)
  | routeFlush (table : ℤ)
deriving DecidableEq, Repr

/-- The edit of the mangle table, if the command is one. -/
def mangleEdit? : NetCommand → Option (Edit Chain Rule)
  | .mangle e => some e
  | _ => none

/-- The edit of the nat table, if the command is one. -/
def natEdit? : NetCommand → Option (Edit Chain Rule)
  | .nat e => some e
  | _ => none

namespace FamilyTables

/-- `ip rule add` and `ip route add` refuse what is there already; `ip rule delete` removes the first
match; flushing an empty table does nothing. -/
def exec (t : FamilyTables) : NetCommand → Option FamilyTables
  | .mangle e => (t.mangle.exec Rule.jump? e).map fun mangle => { t with mangle }
  | .nat e => (t.nat.exec Rule.jump? e).map fun nat => { t with nat }
  | .ruleAdd mark table =>
      if .fwmark mark table ∈ t.rules then none
      else some { t with rules := .fwmark mark table :: t.rules }
  | .ruleDelete mark table =>
      if .fwmark mark table ∈ t.rules then
        some { t with rules := t.rules.erase (.fwmark mark table) }
      else none
  | .routeAdd table =>
      if (table, .localDefault) ∈ t.routes then none
      else some { t with routes := t.routes ++ [(table, .localDefault)] }
  | .routeFlush table => some { t with routes := t.routes.filter (·.1 ≠ table) }

/-- Commands in order, refusals ignored. -/
def runAll (t : FamilyTables) (cmds : List NetCommand) : FamilyTables :=
  cmds.foldl (fun t c => (t.exec c).getD t) t

theorem runAll_append (t : FamilyTables) (first second : List NetCommand) :
    t.runAll (first ++ second) = (t.runAll first).runAll second := List.foldl_append ..

/-- What a command does to the policy routing rules. -/
def editRules (rules : List IpRule) : NetCommand → List IpRule
  | .ruleAdd mark table => rules.insert (.fwmark mark table)
  | .ruleDelete mark table => rules.erase (.fwmark mark table)
  | _ => rules

/-- What a command does to the routes. -/
def editRoutes (routes : List (ℤ × Route)) : NetCommand → List (ℤ × Route)
  | .routeAdd table =>
      if (table, .localDefault) ∈ routes then routes else routes ++ [(table, .localDefault)]
  | .routeFlush table => routes.filter (·.1 ≠ table)
  | _ => routes

section Projections

variable (t : FamilyTables) (cmds : List NetCommand)

private theorem exec_getD (c : NetCommand) :
    (t.exec c).getD t =
      { mangle := t.mangle.execAll Rule.jump? (mangleEdit? c).toList
        nat := t.nat.execAll Rule.jump? (natEdit? c).toList
        rules := editRules t.rules c
        routes := editRoutes t.routes c } := by
  cases c with
  | mangle e =>
    cases done : t.mangle.exec Rule.jump? e <;>
      simp [exec, done, mangleEdit?, natEdit?, editRules, editRoutes, Ruleset.execAll]
  | nat e =>
    cases done : t.nat.exec Rule.jump? e <;>
      simp [exec, done, mangleEdit?, natEdit?, editRules, editRoutes, Ruleset.execAll]
  | ruleAdd mark table =>
    by_cases here : IpRule.fwmark mark table ∈ t.rules <;>
      simp [exec, here, mangleEdit?, natEdit?, editRules, editRoutes]
  | ruleDelete mark table =>
    by_cases here : IpRule.fwmark mark table ∈ t.rules <;>
      simp [exec, here, mangleEdit?, natEdit?, editRules, editRoutes, List.erase_of_not_mem]
  | routeAdd table =>
    by_cases here : (table, Route.localDefault) ∈ t.routes <;>
      simp [exec, here, mangleEdit?, natEdit?, editRules, editRoutes]
  | routeFlush table => simp [exec, mangleEdit?, natEdit?, editRules, editRoutes]

/-- The four components of the tables go their own ways. -/
theorem runAll_eq :
    t.runAll cmds =
      { mangle := t.mangle.execAll Rule.jump? (cmds.filterMap mangleEdit?)
        nat := t.nat.execAll Rule.jump? (cmds.filterMap natEdit?)
        rules := cmds.foldl editRules t.rules
        routes := cmds.foldl editRoutes t.routes } := by
  induction cmds generalizing t with
  | nil => rfl
  | cons c rest ih =>
    have first : t.runAll (c :: rest) = ((t.exec c).getD t).runAll rest := rfl
    rw [first, ih, exec_getD, List.foldl_cons, List.foldl_cons, ← Ruleset.execAll_append,
      ← Ruleset.execAll_append]
    cases m : mangleEdit? c <;> cases n : natEdit? c <;> simp [m, n]

end Projections

/-- The tables of a machine on which nobody has installed anything. -/
def blank : FamilyTables where
  mangle := [(.prerouting, []), (.other "INPUT".toList, []), (.other "FORWARD".toList, []),
    (.output, []), (.postrouting, [])]
  nat := [(.prerouting, []), (.other "INPUT".toList, []), (.output, []), (.postrouting, [])]
  rules := []
  routes := []

end FamilyTables

/-! ## The cgroup hierarchy -/

/-- The directories below the mount point, by their names. The root is one of them, and so is
every directory on the way to one. -/
@[ext] structure Hierarchy where
  isDir : List Str → Bool
  root : isDir [] = true
  closed : ∀ xs ys, isDir (xs ++ ys) = true → isDir xs = true

namespace Hierarchy

/-- The root and some directories right below it. -/
def flat (names : List Str) : Hierarchy where
  isDir
    | [] => true
    | [name] => name ∈ names
    | _ => false
  root := rfl
  closed := by
    intro xs ys present
    rcases xs with _ | ⟨x, _ | ⟨y, xs⟩⟩
    · rfl
    · cases ys <;> simp_all
    · simp at present

/-- `test -d $cgroup_mount_point$path`. -/
def dirExist (h : Hierarchy) (path : Str) : Bool := h.isDir (pathComponents path)

/-- A new directory in an existing one. -/
def mkdir (h : Hierarchy) (path : Str) : Option Hierarchy :=
  if fresh : h.dirExist path = false ∧ h.isDir (pathComponents path).dropLast = true then
    some {
      isDir := fun xs => h.isDir xs || xs = pathComponents path
      root := by simp [h.root]
      closed := by
        intro xs ys present
        simp only [Bool.or_eq_true, decide_eq_true_eq] at present ⊢
        rcases present with old | new
        · exact .inl (h.closed xs ys old)
        · rcases List.eq_nil_or_concat ys with rfl | ⟨zs, z, rfl⟩
          · exact .inr (by simpa using new)
          · rw [List.concat_eq_append, ← List.append_assoc] at new
            rw [← new, List.dropLast_concat] at fresh
            exact .inl (h.closed xs zs fresh.2) }
  else none

/-- A directory named by the first part of a path exists if the whole path does. -/
theorem dirExist_of_append {h : Hierarchy} {x y : Str} (absolute : y.head? = some '/')
    (present : h.dirExist (x ++ y) = true) : h.dirExist x = true := by
  cases y with
  | nil => contradiction
  | cons c y =>
    obtain rfl : c = '/' := by simpa using absolute
    rw [dirExist, pathComponents_append_slash] at present
    exact h.closed _ _ present

end Hierarchy

/-! ## The whole state -/

/-- `mounts` are the cgroup2 mount points in the order of `findmnt`; all show the one hierarchy.
`forwarding` is `net.ipv4.ip_forward` and `net.ipv6.conf.all.forwarding`. -/
structure Kernel where
  tables : Family → FamilyTables
  mounts : List Str
  hierarchy : Hierarchy
  forwarding : Family → Bool

/-- `sysctl` turns the forwarding of a family on; no script turns it off. -/
inductive Command where
  | net (f : Family) (c : NetCommand)
  | mount (target : Str)
  | umount (target : Str)
  | sysctl (f : Family)
deriving DecidableEq, Repr

/-- The command, if it is one of the family's. -/
def Command.forFamily (f : Family) : Command → Option NetCommand
  | net g c => if g = f then some c else none
  | _ => none

namespace Kernel

/-- A machine on which nobody has installed anything. -/
def blank : Kernel where
  tables _ := .blank
  mounts := []
  hierarchy := .flat []
  forwarding _ := false

/-- `mount` succeeds where nothing is mounted, `umount` where something is. -/
def exec (k : Kernel) : Command → Option Kernel
  | .net f c => ((k.tables f).exec c).map fun t => { k with tables := Function.update k.tables f t }
  | .mount target =>
      if target ∈ k.mounts then none else some { k with mounts := k.mounts ++ [target] }
  | .umount target =>
      if target ∈ k.mounts then some { k with mounts := k.mounts.erase target } else none
  | .sysctl f => some { k with forwarding := Function.update k.forwarding f true }

/-- Commands in order, refusals ignored. -/
def runAll (k : Kernel) (cmds : List Command) : Kernel :=
  cmds.foldl (fun k c => (k.exec c).getD k) k

theorem runAll_append (k : Kernel) (first second : List Command) :
    k.runAll (first ++ second) = (k.runAll first).runAll second := List.foldl_append ..

private theorem exec_tables (k : Kernel) (c : Command) (f : Family) :
    ((k.exec c).getD k).tables f = (k.tables f).runAll (c.forFamily f).toList := by
  cases c with
  | mount target => by_cases here : target ∈ k.mounts <;> simp [exec, here, Command.forFamily, FamilyTables.runAll]
  | umount target => by_cases here : target ∈ k.mounts <;> simp [exec, here, Command.forFamily, FamilyTables.runAll]
  | sysctl g => rfl
  | net g c =>
    by_cases same : g = f
    · subst same
      cases done : (k.tables g).exec c <;> simp [exec, done, Command.forFamily, FamilyTables.runAll]
    · have other : f ≠ g := Ne.symm same
      cases done : (k.tables g).exec c <;>
        simp [exec, done, Command.forFamily, FamilyTables.runAll, same, other]

/-- A script edits the tables of a family by the commands it has for that family. -/
theorem runAll_tables (k : Kernel) (cmds : List Command) (f : Family) :
    (k.runAll cmds).tables f = (k.tables f).runAll (cmds.filterMap (Command.forFamily f)) := by
  induction cmds generalizing k with
  | nil => rfl
  | cons c rest ih =>
    have first : (k.runAll (c :: rest)) = ((k.exec c).getD k).runAll rest := rfl
    rw [first, ih, exec_tables, ← FamilyTables.runAll_append]
    cases kind : c.forFamily f <;> simp [kind]

/-- Mounting and unmounting edit no tables. -/
theorem tables_mount (k : Kernel) (target : Str) : (k.runAll [.mount target]).tables = k.tables := by
  funext f
  rw [runAll_tables]
  rfl

theorem tables_umount (k : Kernel) (target : Str) : (k.runAll [.umount target]).tables = k.tables := by
  funext f
  rw [runAll_tables]
  rfl

/-- No command makes or removes a cgroup. -/
@[simp] theorem runAll_hierarchy (k : Kernel) (cmds : List Command) :
    (k.runAll cmds).hierarchy = k.hierarchy := by
  induction cmds generalizing k with
  | nil => rfl
  | cons c rest ih =>
    have first : (k.runAll (c :: rest)) = ((k.exec c).getD k).runAll rest := rfl
    rw [first, ih]
    cases c with
    | net g c => cases done : (k.tables g).exec c <;> simp [exec, done]
    | mount target => by_cases here : target ∈ k.mounts <;> simp [exec, here]
    | umount target => by_cases here : target ∈ k.mounts <;> simp [exec, here]
    | sysctl g => rfl

/-- Forwarding is on if it was before or a command turns it on. -/
theorem runAll_forwarding (k : Kernel) (cmds : List Command) (f : Family) :
    (k.runAll cmds).forwarding f = (k.forwarding f || decide (.sysctl f ∈ cmds)) := by
  induction cmds generalizing k with
  | nil => simp [runAll]
  | cons c rest ih =>
    have first : (k.runAll (c :: rest)) = ((k.exec c).getD k).runAll rest := rfl
    rw [first, ih]
    cases c with
    | net g c => cases done : (k.tables g).exec c <;> simp [exec, done]
    | mount target => by_cases here : target ∈ k.mounts <;> simp [exec, here]
    | umount target => by_cases here : target ∈ k.mounts <;> simp [exec, here]
    | sysctl g =>
      by_cases same : f = g
      · subst same
        simp [exec]
      · simp [exec, same]

/-- Packets are treated alike: the kernels differ in their mounts and directories at most. -/
structure Alike (k k' : Kernel) : Prop where
  tables : k'.tables = k.tables
  forwarding : k'.forwarding = k.forwarding

theorem Alike.refl (k : Kernel) : Alike k k := ⟨rfl, rfl⟩

theorem Alike.trans {k k' k'' : Kernel} (first : Alike k k') (second : Alike k' k'') : Alike k k'' :=
  ⟨second.tables.trans first.tables, second.forwarding.trans first.forwarding⟩

theorem Alike.mount (k : Kernel) (target : Str) : Alike k (k.runAll [.mount target]) :=
  ⟨k.tables_mount target, funext fun f => by simp [runAll_forwarding]⟩

theorem Alike.umount (k : Kernel) (target : Str) : Alike k (k.runAll [.umount target]) :=
  ⟨k.tables_umount target, funext fun f => by simp [runAll_forwarding]⟩

theorem Alike.runAll {k k' : Kernel} (alike : Alike k k') (cmds : List Command) :
    Alike (k.runAll cmds) (k'.runAll cmds) :=
  ⟨funext fun f => by rw [runAll_tables, runAll_tables, alike.tables],
    funext fun f => by rw [runAll_forwarding, runAll_forwarding, alike.forwarding]⟩

end Kernel

end CgProxy
