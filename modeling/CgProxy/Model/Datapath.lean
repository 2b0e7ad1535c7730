import CgProxy.Model.Kernel
import CgProxy.Netfilter.Conntrack
import CgProxy.Netfilter.Routing

/-! # The way of a packet

A packet that a process here sends walks through OUTPUT and is routed with the mark it then has. What is routed
to the machine itself comes back on the loopback device and is treated like a packet that arrives from outside:
it walks through PREROUTING and is routed again. What is then for others is forwarded, if the machine forwards,
and the nat table decides about its source address. The policy rules and routes of other software, and the
tables that decide when no policy rule does, are `Surroundings`. Of netfilter the hooks that the script edits
are looked at. Its rule in the nat table is for packets without a socket, so what a process sends is not asked
about there.
-/

namespace CgProxy

open Netfilter

/-- Where a route leads. -/
inductive Hop (δ : Type*) where
  | here
  | away (next : δ)

instance {δ : Type*} : (hop : Hop δ) → Decidable (hop = .here)
  | .here => isTrue rfl
  | .away _ => isFalse nofun

/-- The table that a policy rule of other software consults, what a route of other software answers, and what
becomes of a packet that no policy rule decides. -/
structure Surroundings (δ : Type*) where
  consults : Str → Packet → Option ℤ
  answers : Str → Packet → Option (Hop δ)
  last : Packet → Hop δ

/-- The end of the way: TPROXY hands the packet to the socket that listens there, the machine delivers it to
the socket its addresses name, or it leaves. What has come from others leaves with its own source address or
with one of the machine, or not at all. -/
inductive Fate (δ : Type*) where
  | proxied (onIp : Str) (onPort : ℤ)
  | delivered
  | sent (next : δ) (p : Packet)
  | forwarded (next : δ) (p : Packet) (masqueraded : Bool)
  | dropped
deriving DecidableEq

/-- A routed packet of this machine, if we know what happens to it here. -/
def Hop.fate {δ : Type*} (here : Fate δ) (p : Packet) : Hop δ → Fate δ
  | .here => here
  | .away next => .sent next p

/-- A routed packet that has come in. -/
def Hop.passed {δ : Type*} (here : Fate δ) (forwarding masqueraded : Bool) (p : Packet) : Hop δ → Fate δ
  | .here => here
  | .away next => if forwarding then .forwarded next p masqueraded else .dropped

/-- A packet for the machine, if TPROXY has chosen that socket. -/
def Fate.ofListener {δ : Type*} : Option (Str × ℤ) → Fate δ
  | some (onIp, onPort) => proxied onIp onPort
  | none => delivered

/-- A rule with a mark is for packets with that mark. -/
def IpRule.consults {δ : Type*} (s : Surroundings δ) : IpRule → Packet → Option ℤ
  | fwmark mark table, p => if p.mark = mark then some table else none
  | other spec, p => s.consults spec p

/-- What a route answers that is not the default. -/
def Route.answers {δ : Type*} (s : Surroundings δ) : Route → Packet → Option (Hop δ)
  | localDefault, _ => none
  | other spec, p => s.answers spec p

/-- The socket that an action hands packets to. -/
def Action.listener? : Action → Option (Str × ℤ)
  | tproxy onIp onPort _ => some (onIp, onPort)
  | _ => none

namespace FamilyTables

variable {δ : Type*} (s : Surroundings δ) (t : FamilyTables)

/-- The routes of one table. The default is the least specific of them. -/
def answers (table : ℤ) (p : Packet) : Option (Hop δ) :=
  (t.routes.findSome? fun route => if route.1 = table then route.2.answers s p else none).or
    (if t.routes.any (· = (table, .localDefault)) then some .here else none)

def policy : Policy IpRule ℤ Packet (Hop δ) where
  consults := IpRule.consults s
  answers := t.answers s

/-- The rule for the table of the machine's own addresses and of broadcasts comes before all others. -/
def route (p : Packet) : Hop δ :=
  if p.dstType = .localAddr then .here
  else if p.dstType = .broadcast then s.last p
  else ((t.policy s).lookup t.rules p).getD (s.last p)

/-- The nat table is asked for the first packet of a connection. What it says holds for the others in the same
direction, and in the other direction it is taken back. -/
def masquerades (p : Packet) : Bool :=
  !p.reply && decide (.masquerade ∈ (walk netfilter t.nat .postrouting p).fired)

/-- A packet that comes in. -/
def arrive (forwarding : Bool) (p : Packet) : Fate δ :=
  let passage := walk netfilter t.mangle .prerouting p
  (t.route s passage.packet).passed (.ofListener (passage.fired.findSome? Action.listener?)) forwarding
    (t.masquerades passage.packet) passage.packet

/-- A packet of a process here. -/
def emit (forwarding : Bool) (p : Packet) : Fate δ :=
  let q := (walk netfilter t.mangle .output p).packet
  (t.route s q).fate (t.arrive s forwarding q) q

end FamilyTables

namespace Kernel

variable {δ : Type*} (s : Surroundings δ) (k : Kernel) (p : Packet)

def arrive : Fate δ := (k.tables p.family).arrive s (k.forwarding p.family) p

def emit : Fate δ := (k.tables p.family).emit s (k.forwarding p.family) p

end Kernel

/-! ## Packets one after another

What the rule with `--ctdir REPLY` sees of a packet depends on the packets before it. Here the packets of a
machine pass one after another, each with the tuple of its addresses and ports, and its direction is that of
its connection at the time. Rules and routes stay as they are meanwhile.
-/

/-- A packet comes in or is sent, and gets through or not; or the entry of a connection expires. -/
inductive Traffic (τ : Type*) where
  | received (t : τ) (p : Packet) (confirmed : Bool)
  | sent (t : τ) (p : Packet) (confirmed : Bool)
  | expired (t : τ)

variable {τ δ : Type*} [DecidableEq τ]

/-- Connection tracking comes before the mangle table in both hooks. -/
def Traffic.tracked : Traffic τ → Conntrack.Event τ
  | received t _ confirmed | sent t _ confirmed => .packet t confirmed
  | expired t => .expire t

/-- The packet with the direction that it has after the traffic so far. -/
def Packet.directed (reverse : τ → τ) (before : List (Traffic τ)) (t : τ) (p : Packet) : Packet :=
  { p with reply := Conntrack.reply reverse (Conntrack.run reverse (before.map Traffic.tracked)) t }

/-- What becomes of a packet after the traffic so far. -/
def Kernel.fate (reverse : τ → τ) (s : Surroundings δ) (k : Kernel) (before : List (Traffic τ)) :
    Traffic τ → Option (Fate δ)
  | .received t p _ => some (k.arrive s (p.directed reverse before t))
  | .sent t p _ => some (k.emit s (p.directed reverse before t))
  | .expired _ => none

end CgProxy
