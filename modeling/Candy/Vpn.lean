import Candy.ClientLogin
import Candy.Server

/-! A whole virtual network: the server of src/websocket/server.cc and the clients of
src/core/client.cc behind its connections, with the frames in flight between them. A
client starts when its connection is accepted and has no other one. What passes
between peers is left to the outside: any datagram may reach any client. -/
namespace Candy.Vpn
open WsMsg Modules
open ClientQueues (Core Module Item Sent Config framesOf)

structure Env where
  aead : DataPlane.Aead
  sha : Digest
  ipAddress : Bytes → Option IP4

def Env.server (env : Env) : Server.Env := ⟨env.sha,env.ipAddress⟩

/- setPassword of a client gives one password to its websocket and to its peers. -/
def Env.client (env : Env) (cfg : Config) : ClientQueues.Env := ⟨⟨env.aead,env.sha,cfg.password⟩,env.ipAddress⟩

abbrev Client := Modules.State Core Module Item Sent

/- taken counts the frames of the client that the server has received, down holds the
frames of the server that the client has not. -/
structure Session where
  cfg : Config
  client : Client
  taken : Nat
  down : List Bytes

def Session.up (c : Session) : List Bytes := (framesOf c.client.sent).drop c.taken

structure State where
  server : Server.State
  sessions : Server.Ptr → Option Session

def sentTo (q : Server.Ptr) (sent : List Server.Effect) : List Bytes := sent.filterMap fun
  | .send target frame => if target = q then some frame else none
  | .log _ _ => none

def State.deliver (s : State) (out : Server.State × List Server.Effect) : State :=
  ⟨out.1,fun q => (s.sessions q).map fun c => {c with down := c.down ++ sentTo q out.2}⟩

def State.place (s : State) (p : Server.Ptr) (c : Session) : State :=
  {s with sessions := Function.update s.sessions p (some c)}

/- What the server does by itself, and what a client does without the server. -/
def alone : Server.Event → Bool
  | .opened _ => false
  | .received .. => false
  | _ => true

def local_ : ClientQueues.Event → Bool
  | .frame .. => false
  | _ => true

inductive Event where
  | opened (p : Server.Ptr) (cfg : Config) (pingMessage : Bytes) (now : BitVec 64)
  | served (e : Server.Event)
  | uplinked (p : Server.Ptr) (now : BitVec 64)
  | downlinked (p : Server.Ptr) (pingMessage : Bytes) (now : BitVec 64)
  | member (p : Server.Ptr) (e : ClientQueues.Event)

/- A frame that a side cannot take stays where it is. -/
def handle (env : Env) (s : State) : Event → Option State
  | .opened p cfg pingMessage now =>
    (Server.handle env.server s.server (.opened p)).bind fun out =>
      (ClientQueues.start (env.client cfg) cfg pingMessage now).map fun client =>
        {s with server := out.1}.place p ⟨cfg,client,0,[]⟩
  | .served e => if alone e then (Server.handle env.server s.server e).map s.deliver else none
  | .uplinked p now => (s.sessions p).bind fun c =>
    match c.up with
    | [] => none
    | frame::_ => (Server.handle env.server s.server (.received p frame now)).map
        (s.place p {c with taken := c.taken + 1}).deliver
  | .downlinked p pingMessage now => (s.sessions p).bind fun c =>
    match c.down with
    | [] => none
    | frame::rest => ((ClientQueues.client (env.client c.cfg)).handled c.client (.frame frame pingMessage now)).map
        fun client => s.place p {c with client := client,down := rest}
  | .member p e => (s.sessions p).bind fun c =>
    if local_ e then ((ClientQueues.client (env.client c.cfg)).handled c.client e).map
      fun client => s.place p {c with client := client}
    else none

def step (env : Env) (s : State) (e : Event) (t : State) : Prop := handle env s e = some t

def initial (password : Bytes) (dhcp : Address) (routes : List Server.SysRoute) : State :=
  ⟨Server.initial password dhcp routes,fun _ => none⟩

section
variable {env : Env} {s t : State} {e : Event}

inductive Handled (env : Env) (s : State) : Event → State → Prop where
  | opened {p cfg pingMessage now out client} (accepted : Server.handle env.server s.server (.opened p) = some out)
      (begun : ClientQueues.start (env.client cfg) cfg pingMessage now = some client) :
      Handled env s (.opened p cfg pingMessage now) ({s with server := out.1}.place p ⟨cfg,client,0,[]⟩)
  | served {e out} (apart : alone e = true) (handled : Server.handle env.server s.server e = some out) :
      Handled env s (.served e) (s.deliver out)
  | uplinked {p now c frame rest out} (here : s.sessions p = some c) (first : c.up = frame::rest)
      (handled : Server.handle env.server s.server (.received p frame now) = some out) :
      Handled env s (.uplinked p now) ((s.place p {c with taken := c.taken + 1}).deliver out)
  | downlinked {p pingMessage now c frame rest client} (here : s.sessions p = some c) (first : c.down = frame::rest)
      (stepped : (ClientQueues.client (env.client c.cfg)).step c.client (.frame frame pingMessage now) client) :
      Handled env s (.downlinked p pingMessage now) (s.place p {c with client := client,down := rest})
  | member {p e c client} (here : s.sessions p = some c) (apart : local_ e = true)
      (stepped : (ClientQueues.client (env.client c.cfg)).step c.client e client) :
      Handled env s (.member p e) (s.place p {c with client := client})

theorem handleCases (ok : handle env s e = some t) : Handled env s e t := by
  cases e with
  | opened p cfg pingMessage now =>
    obtain ⟨out,accepted,begun⟩ := Option.bind_eq_some_iff.mp ok
    obtain ⟨client,begun,same⟩ := Option.map_eq_some_iff.mp begun
    exact same ▸ .opened accepted begun
  | served e =>
    simp only [handle] at ok
    split at ok
    · rename_i apart
      obtain ⟨out,handled,same⟩ := Option.map_eq_some_iff.mp ok
      exact same ▸ .served apart handled
    · contradiction
  | uplinked p now =>
    obtain ⟨c,here,ok⟩ := Option.bind_eq_some_iff.mp ok
    split at ok
    · contradiction
    · rename_i first
      obtain ⟨out,handled,same⟩ := Option.map_eq_some_iff.mp ok
      exact same ▸ .uplinked here first handled
  | downlinked p pingMessage now =>
    obtain ⟨c,here,ok⟩ := Option.bind_eq_some_iff.mp ok
    split at ok
    · contradiction
    · rename_i first
      obtain ⟨client,stepped,same⟩ := Option.map_eq_some_iff.mp ok
      exact same ▸ .downlinked here first stepped
  | member p e =>
    obtain ⟨c,here,ok⟩ := Option.bind_eq_some_iff.mp ok
    split at ok
    · rename_i apart
      obtain ⟨client,stepped,same⟩ := Option.map_eq_some_iff.mp ok
      exact same ▸ .member here apart stepped
    · contradiction

theorem sentToMember {q : Server.Ptr} {sent : List Server.Effect} {frame : Bytes} :
    frame ∈ sentTo q sent ↔ .send q frame ∈ sent := by
  unfold sentTo
  rw [List.mem_filterMap]
  constructor
  · rintro ⟨effect,member,same⟩
    cases effect with
    | log text dump => contradiction
    | send target one =>
      dsimp only at same
      split at same
      · rename_i here
        cases same
        rwa [here] at member
      · contradiction
  · intro member
    exact ⟨_,member,if_pos rfl⟩

theorem deliverAt {out : Server.State × List Server.Effect} {q : Server.Ptr} {c : Session} (here : (s.deliver out).sessions q = some c) :
    ∃ d, s.sessions q = some d ∧ c = {d with down := d.down ++ sentTo q out.2} := by
  obtain ⟨d,before,same⟩ := Option.map_eq_some_iff.mp here
  exact ⟨d,before,same.symm⟩

end
end Candy.Vpn
