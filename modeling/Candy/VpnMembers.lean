import Candy.VpnLogin

/-! What holds of a virtual network in every state it reaches, for clients of this
repository behind its server: the registry is sound without a condition on the frames,
an address belongs to one member and both ends know it, and a packet gets into the Tun
module of the member it is for. -/
namespace Candy.Vpn
open WsMsg Modules Runs
open ClientQueues (Core Module Item Sent Config framesOf Located)
open Server (Ptr Admitted destination Sound RegistryValid NoStaleSend)

section
variable {env : Env} {group : IP4 → Prop} {network : Address} {s t : State} {e : Event}

theorem callsKept {s t : Server.State} {e : Server.Event} {sent : List Server.Effect} {q : Ptr}
    (ok : Server.handle env.server s e = some (t,sent)) (other : e ≠ .opened q) (present : t.calls q ≠ none) : s.calls q ≠ none := by
  have entered {p : Ptr} {stage : Option Server.Stage} (here : s.calls p ≠ none)
      (after : Function.update s.calls p stage q ≠ none) : s.calls q ≠ none := by
    by_cases same : q = p
    · rw [same]; exact here
    · rwa [Function.update_of_ne same] at after
  cases Server.handleCases ok with
  | opened =>
    rename_i p free
    have apart : q ≠ p := fun same => other (same ▸ rfl)
    change Function.update s.calls p _ q ≠ none at present
    rwa [Function.update_of_ne apart] at present
  | received here =>
    have spec := (Server.receivedSpec ok).1
    rw [spec.calls] at present
    exact entered (by rw [here]; simp) present
  | registered here made =>
    rw [(Server.registerSpec made).1.calls] at present
    exact entered (by rw [here]; simp) present
  | returned here left =>
    obtain ⟨calls,_⟩ := Server.disconnectSpec left
    simp only [Server.State.enter,calls] at present
    exact entered (by rw [here]; simp) present
  | checked here => exact entered (by rw [here]; simp) present
  | idled here => exact entered (by rw [here]; simp) present
  | hungUp here => exact entered (by rcases here with here | here <;> rw [here] <;> simp) present
  | reused => exact present
  | stopped => exact present

theorem serverStep (consistent : Consistent env network group s) {e : Server.Event} {out : Server.State × List Server.Effect}
    (ok : Server.handle env.server s.server e = some out) (keeps : Server.KeepsAddress env.server s.server e) :
    Sound out.1 ∧ Server.Walked network out.1.dhcp := by
  have stepped : Server.step env.server s.server e out.1 := ⟨out.2,ok⟩
  exact ⟨⟨Server.validStep consistent.sound keeps stepped,Server.awaitingStep consistent.sound.awaiting stepped⟩,
    consistent.walked.trans (Server.walkedStep stepped)⟩

theorem keepsAlone {s : Server.State} {e : Server.Event} (other : ∀ p frame now, e ≠ .received p frame now) :
    Server.KeepsAddress env.server s e := by
  cases e with
  | received p frame now => exact absurd rfl (other p frame now)
  | _ => trivial

theorem keepsUplink (consistent : Consistent env network group s) {p : Ptr} {c : Session} {frame : Bytes} {rest : List Bytes}
    {now : BitVec 64} (here : s.sessions p = some c) (first : c.up = frame::rest) :
    Server.KeepsAddress env.server s.server (.received p frame now) := by
  intro ip login _ found
  obtain ⟨_,placed⟩ := consistent.placed p c here
  have spent := (placed.logged (registeredAdmitted consistent.sound found)).2
  have token : logs frame = true := decide_eq_true (.inl (Server.loginKind login).1)
  rw [tokens,first,List.countP_cons,if_pos token] at spent
  omega

theorem placeAt {p q : Ptr} {c d : Session} (found : (s.place p c).sessions q = some d) :
    q = p ∧ d = c ∨ q ≠ p ∧ s.sessions q = some d := by
  change Function.update s.sessions p (some c) q = some d at found
  by_cases same : q = p
  · subst same
    rw [Function.update_self] at found
    exact .inl ⟨rfl,(Option.some.inj found).symm⟩
  · rw [Function.update_of_ne same] at found
    exact .inr ⟨same,found⟩

theorem placePresent {p q : Ptr} {c : Session} (found : ∃ d, s.sessions q = some d) : ∃ d, (s.place p c).sessions q = some d := by
  change ∃ d, Function.update s.sessions p (some c) q = some d
  by_cases same : q = p
  · subst same
    exact ⟨c,Function.update_self ..⟩
  · rwa [Function.update_of_ne same]

theorem deliverPresent {out : Server.State × List Server.Effect} {q : Ptr} (found : ∃ d, s.sessions q = some d) :
    ∃ d, (s.deliver out).sessions q = some d := by
  obtain ⟨d,here⟩ := found
  exact ⟨_,Option.map_eq_some_iff.mpr ⟨d,here,rfl⟩⟩

theorem clientPlaced (consistent : Consistent env network group s) {p : Ptr} {c : Session}
    (placed : ∃ ip, Placed env group s.server p c ip) : Consistent env network group (s.place p c) where
  sound := consistent.sound
  walked := consistent.walked
  present q present := placePresent (consistent.present q present)
  placed q d found := by
    rcases placeAt found with ⟨rfl,rfl⟩ | ⟨_,before⟩
    · exact placed
    · exact consistent.placed q d before

theorem consistentStep (dotted : ∀ q : IP4, env.ipAddress q.toString = some q)
    (classified : ∀ a, Server.Walked network a → ∀ dst, Server.isBroadcast a dst = true → group dst)
    (consistent : Consistent env network group s) (stepped : step env s e t) : Consistent env network group t := by
  cases handleCases stepped with
  | @opened p cfg pingMessage now out client accepted begun =>
    obtain ⟨sound,walked⟩ := serverStep consistent accepted (keepsAlone (by simp))
    have before {q : Ptr} (admitted : Admitted out.1 q) : Admitted s.server q ∧ (out.1.mem q).ip = (s.server.mem q).ip :=
      (Server.admittedStep consistent.sound ⟨out.2,accepted⟩ admitted).resolve_left (by rintro ⟨_,_,_,event,_⟩; cases event)
    refine ⟨sound,walked,fun q present => ?_,fun q d found => ?_⟩
    · by_cases same : q = p
      · exact ⟨_,by rw [same]; exact Function.update_self ..⟩
      · exact placePresent (consistent.present q (callsKept accepted (by simpa using Ne.symm same) present))
    · rcases placeAt found with ⟨rfl,rfl⟩ | ⟨_,old⟩
      · refine startPlaced dotted begun fun admitted => (before admitted).1.1 ?_
        cases Server.handleCases accepted with | opened free => exact free
      · obtain ⟨ip,placed⟩ := consistent.placed q d old
        exact ⟨ip,placed.unserved before⟩
  | @served e out apart handled =>
    have other : ∀ p frame now, e ≠ .received p frame now := by
      rintro p frame now rfl
      contradiction
    obtain ⟨sound,walked⟩ := serverStep consistent handled (keepsAlone other)
    refine ⟨sound,walked,fun q present => ?_,fun q c found => ?_⟩
    · refine deliverPresent (consistent.present q (callsKept handled ?_ present))
      rintro rfl
      contradiction
    · obtain ⟨d,old,rfl⟩ := deliverAt found
      obtain ⟨ip,placed⟩ := consistent.placed q d old
      exact ⟨ip,placed.pushed consistent.sound other handled⟩
  | @uplinked p now c frame rest out here first handled =>
    obtain ⟨sound,walked⟩ := serverStep consistent handled (keepsUplink consistent here first)
    refine ⟨sound,walked,fun q present => ?_,fun q d found => ?_⟩
    · exact deliverPresent (placePresent (consistent.present q (callsKept handled (by simp) present)))
    · obtain ⟨d',old,rfl⟩ := deliverAt found
      rcases placeAt old with ⟨rfl,rfl⟩ | ⟨apart,old⟩
      · obtain ⟨ip,placed⟩ := consistent.placed q c here
        exact ⟨ip,placed.serves consistent.sound consistent.walked classified first handled⟩
      · obtain ⟨ip,placed⟩ := consistent.placed q d' old
        exact ⟨ip,placed.beside consistent.sound consistent.walked classified apart handled⟩
  | @downlinked p pingMessage now c frame rest client here first acted =>
    obtain ⟨ip,placed⟩ := consistent.placed p c here
    refine clientPlaced consistent ?_
    cases asked : asks frame with
    | true => exact placed.answers dotted first asked acted
    | false =>
      refine ⟨ip,placed.moves dotted acted (fun f member => first ▸ List.mem_cons_of_mem _ member) ?_ ?_⟩
      · rw [first,List.countP_cons,if_neg (by simp [asked])]
        rfl
      · intro m pingMessage' now' event
        cases event
        exact ⟨first ▸ List.mem_cons_self ..,asked⟩
  | @member p e c client here apart acted =>
    obtain ⟨ip,placed⟩ := consistent.placed p c here
    refine clientPlaced consistent ⟨ip,placed.moves dotted acted (fun f member => member) rfl ?_⟩
    rintro m pingMessage now rfl
    contradiction

theorem consistentRun (dotted : ∀ q : IP4, env.ipAddress q.toString = some q)
    (classified : ∀ a, Server.Walked network a → ∀ dst, Server.isBroadcast a dst = true → group dst)
    {password : Bytes} {routes : List Server.SysRoute} {events : List Event}
    (run : Run (step env) (initial password network routes) events s) : Consistent env network group s := by
  refine run.invariant ⟨Server.initialSound password network routes,.refl network,?_,?_⟩
    fun _ _ _ consistent stepped => consistentStep dotted classified consistent stepped
  · intro p present
    exact absurd rfl present
  · intro p c found
    contradiction

/- Two members, one with its address from the configuration and one that asks for it. -/
def quadEnv : Env := ⟨DataPlane.network.aead,Address.quads.sha,Address.dottedQuad⟩
def pool : Address := ⟨⟨10,0,0,1⟩,⟨255,255,255,0⟩⟩

def joining (tunCidr : Bytes) : Config where
  password := []
  tunCidr := tunCidr
  exptTunCidr := []
  vmac := []
  p2pOnly := false
  userspaceStack := false
  routeCost := 0
  stunEnabled := false
  scopes := ⟨fun _ => false,fun _ => false,fun _ => false⟩
  localhost := IP4.zero
  listenPort := 0

def join (p : Ptr) (tunCidr : Bytes) : List Event :=
  [.opened p (joining tunCidr) [] 0,.served (.checked p),.uplinked p 0,.served (.checked p),.uplinked p 0]

def settle (p : Ptr) : List Event := [.served (.registered p),.member p (.tunQueue 0)]

def joined : List Event := join 0 (ascii "10.0.0.1/24") ++ settle 0 ++ join 1 [] ++
  ([.downlinked 1 [] 0,.served (.checked 1),.uplinked 1 0] : List Event) ++ settle 1

/- A packet of the first for the second, through the server. -/
def unconnected : DataPlane.Attempt := ⟨none,false,false⟩
def greeted : List Event := joined ++ [.member 0 (.device ⟨0,0,.stored⟩ DataPlane.sample),
  .member 0 (.peerQueue unconnected unconnected ⟨0,0,0⟩ 0),.member 0 (.peerQueue unconnected unconnected ⟨0,0,0⟩ 0),
  .member 0 .wsQueue,.served (.checked 0),.uplinked 0 0,.downlinked 1 [] 0]

theorem quadDotted (q : IP4) : quadEnv.ipAddress q.toString = some q := by
  have parser : quadEnv.ipAddress = Address.dottedQuad := rfl
  rw [parser]
  exact Address.quadRead q

theorem executedRun {events : List Event} {s : State} (ok : execute (handle quadEnv) (initial [] pool []) events = some s) :
    Run (step quadEnv) (initial [] pool []) events s := executeRun (fun _ _ _ taken => taken) ok

structure HasAddress (env : Env) (c : Session) (ip : IP4) : Prop where
  login : ∃ a, WsClient.address (env.client c.cfg).ws c.client.core.ws.tunCidr = some a ∧ a.host = ip
  located : Located ip c.client.core

def Registered (s : State) (p : Ptr) : Prop := ∃ ip, s.server.ipCtxMap.lookup ip = some p

end
end Candy.Vpn
