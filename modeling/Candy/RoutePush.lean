import Candy.Server
import Candy.WsClient

/-! The SD-WAN rules on their way to a client: setSdwan reads them, updateSysRoute
sends the ones of a client in batches, handleRouteMsg takes a batch apart. A batch
is cut when it holds 101 entries, so its size always fits the one-byte field and
the frame the receiver's buffer. -/
namespace Candy.RoutePush
open WsMsg Server

def semicolon : Byte := 59
def comma : Byte := 44

/- std::getline: it fails at the end of the stream. -/
def getline (stream : Bytes) (delim : Byte) : Option (Bytes × Bytes) :=
  if stream = [] then none else some (stream.takeWhile (· != delim),(stream.dropWhile (· != delim)).drop 1)

inductive Parsed (α : Type) where
  | ok (value : α) (rest : Bytes)
  | fatal (text : String)
  | undefined
  deriving DecidableEq, Repr

/- One network of a rule; its host bits have to be zero. -/
def parseNet (ipAddress : Bytes → Option IP4) (text : String) (stream : Bytes) : Parsed Address :=
  match getline stream comma with
  | none => .fatal text
  | some (addr,rest) => match Address.fromCidr ipAddress ⟨IP4.zero,IP4.zero⟩ addr with
    | .ok a => if a.host ≠ a.net then .fatal text else .ok a rest
    | .rejected _ => .fatal text
    | .outOfBounds => .undefined

/- fromString throws on a text that is no address. -/
def parseNext (ipAddress : Bytes → Option IP4) (stream : Bytes) : Parsed IP4 :=
  match getline stream comma with
  | none => .fatal "invalid route nexthop: %s"
  | some (addr,rest) => match ipAddress addr with
    | some ip => .ok ip rest
    | none => .undefined

def parseRoute (ipAddress : Bytes → Option IP4) (route : Bytes) : Parsed SysRoute :=
  match parseNet ipAddress "invalid route device: %s" route with
  | .fatal text => .fatal text
  | .undefined => .undefined
  | .ok dev rest => match parseNet ipAddress "invalid route dest: %s" rest with
    | .fatal text => .fatal text
    | .undefined => .undefined
    | .ok dst rest => match parseNext ipAddress rest with
      | .fatal text => .fatal text
      | .undefined => .undefined
      | .ok next rest => .ok ⟨dev,dst,next⟩ rest

theorem getlineShorter {stream line rest : Bytes} {delim : Byte} (ok : getline stream delim = some (line,rest)) :
    rest.length < stream.length := by
  unfold getline at ok
  split at ok <;> [contradiction; skip]
  rename_i nonempty
  cases ok
  have tail := (List.dropWhile_sublist (fun b => b != delim) (l := stream)).length_le
  have some' : 0 < stream.length := List.length_pos_iff.mpr nonempty
  rw [List.length_drop]
  omega

/- The rules pushed before the first bad one, and the fatal log of that one. -/
def setSdwan (ipAddress : Bytes → Option IP4) (stream : Bytes) : Option (List SysRoute × Option (String × Bytes)) :=
  match _line : getline stream semicolon with
  | none => some ([],none)
  | some (route,rest) => match parseRoute ipAddress route with
    | .fatal text => some ([],some (text,route))
    | .undefined => none
    | .ok rt _ => (setSdwan ipAddress rest).map fun out => (rt::out.1,out.2)
termination_by stream.length
decreasing_by exact getlineShorter _line

theorem parseNetFixed {ipAddress text stream a rest} (ok : parseNet ipAddress text stream = .ok a rest) :
    a.host = a.net := by
  unfold parseNet at ok
  split at ok <;> [contradiction; skip]
  split at ok <;> try contradiction
  split at ok <;> [contradiction; skip]
  rename_i fixed
  cases ok
  exact not_not.mp fixed

theorem parseRouteFixed {ipAddress route rt rest} (ok : parseRoute ipAddress route = .ok rt rest) :
    rt.dev.host = rt.dev.net ∧ rt.dst.host = rt.dst.net := by
  unfold parseRoute at ok
  split at ok <;> try contradiction
  rename_i dev
  split at ok <;> try contradiction
  rename_i dst
  split at ok <;> try contradiction
  cases ok
  exact ⟨parseNetFixed dev,parseNetFixed dst⟩

theorem sdwanFixed (ipAddress : Bytes → Option IP4) (stream : Bytes) (routes : List SysRoute)
    (fatal : Option (String × Bytes)) (ok : setSdwan ipAddress stream = some (routes,fatal)) :
    ∀ rt ∈ routes, rt.dev.host = rt.dev.net ∧ rt.dst.host = rt.dst.net := by
  fun_induction setSdwan ipAddress stream generalizing routes fatal with
  | case1 => cases ok; simp
  | case2 => cases ok; simp
  | case3 => contradiction
  | case4 _ _ _ _ rt _ parsed ih =>
    obtain ⟨out,rest,same⟩ := Option.map_eq_some_iff.mp ok
    cases same
    intro r member
    rcases List.mem_cons.mp member with rfl | inside
    · exact parseRouteFixed parsed
    · exact ih out.1 out.2 rest r inside

def Contains (rt : SysRoute) (ip : IP4) : Prop := rt.dev.mask &&& ip = rt.dev.net
instance (rt : SysRoute) (ip : IP4) : Decidable (Contains rt ip) := inferInstanceAs (Decidable (_ = _))

def batchFrame (batch : List SysRouteEntry) : Bytes :=
  sysRoute batch.length (batch.flatMap SysRouteEntry.bytes)

def matching (ip : IP4) (routes : List SysRoute) : List SysRouteEntry :=
  (routes.filter (fun rt => rt.dev.mask &&& ip = rt.dev.host)).map entry

theorem batchSpec (ip : IP4) (routes : List SysRoute) (begun : List SysRouteEntry) (short : begun.length ≤ 100) :
    ∃ batches : List (List SysRouteEntry),
      (batchRoutes ip routes begun.length (begun.flatMap SysRouteEntry.bytes)).1 = batches.map batchFrame ∧
      batches.flatten = begun ++ matching ip routes ∧ ∀ batch ∈ batches, batch.length ≤ 101 := by
  induction routes generalizing begun with
  | nil =>
    unfold batchRoutes
    split
    · exact ⟨[begun],rfl,by simp [matching],by simp; omega⟩
    · rename_i empty
      have none : begun = [] := List.length_eq_zero_iff.mp (by omega)
      exact ⟨[],rfl,by simp [matching,none],by simp⟩
  | cons rt rest ih =>
    by_cases here : rt.dev.mask &&& ip = rt.dev.host
    · have more : matching ip (rt::rest) = entry rt :: matching ip rest := by simp [matching,here]
      have bytes : begun.flatMap SysRouteEntry.bytes ++ (entry rt).bytes =
          (begun ++ [entry rt]).flatMap SysRouteEntry.bytes := by simp
      by_cases full : begun.length + 1 > 100
      · obtain ⟨batches,sent,order,small⟩ := ih [] (by simp)
        refine ⟨(begun ++ [entry rt])::batches,?_,?_,fun batch member => ?_⟩
        · simp only [batchRoutes,if_pos here,if_pos full,bytes,List.map_cons]
          simp only [List.length_nil,List.flatMap_nil] at sent
          rw [sent,batchFrame,List.length_append,List.length_singleton]
        · simp [order,more]
        · rcases List.mem_cons.mp member with rfl | inside
          · simp; omega
          · exact small batch inside
      · obtain ⟨batches,sent,order,small⟩ := ih (begun ++ [entry rt]) (by simp; omega)
        refine ⟨batches,?_,by simp [order,more],small⟩
        simp only [batchRoutes,if_pos here,if_neg full,bytes]
        rw [← sent,List.length_append,List.length_singleton]
    · obtain ⟨batches,sent,order,small⟩ := ih begun short
      have same : matching ip (rt::rest) = matching ip rest := by simp [matching,here]
      refine ⟨batches,?_,by rw [order,same],small⟩
      simp only [batchRoutes,if_neg here,if_neg (Nat.not_lt.mpr short)]
      exact sent

/- The struct Tun reads out of a SYSRT message, and what a frame brings to Tun. -/
def readEntry (data : Bytes) : SysRouteEntry := ⟨ip4At data 0,ip4At data 4,ip4At data 8⟩

def received (effects : List WsClient.Effect) : List SysRouteEntry :=
  (WsClient.written .tun effects).filterMap fun
    | .sysRt data => some (readEntry data)
    | _ => none

theorem entryLength (e : SysRouteEntry) : e.bytes.length = 12 := rfl

theorem flatLength (batch : List SysRouteEntry) : (batch.flatMap SysRouteEntry.bytes).length = 12 * batch.length := by
  induction batch with
  | nil => rfl
  | cons e rest ih => rw [List.flatMap_cons,List.length_append,entryLength,ih,List.length_cons]; omega

theorem entryAt (batch : List SysRouteEntry) (i : Nat) (inside : i < batch.length) :
    field (batch.flatMap SysRouteEntry.bytes) (12 * i) 12 = batch[i].bytes := by
  induction batch generalizing i with
  | nil => contradiction
  | cons e rest ih =>
    rw [List.flatMap_cons]
    cases i with
    | zero => exact List.take_left' (entryLength e)
    | succ i =>
      have shifted : 12 * (i+1) = e.bytes.length + 12 * i := by rw [entryLength]; omega
      rw [field,shifted,List.drop_length_add_append]
      exact ih i (by simpa using inside)

theorem mapMSome {α β : Type} {f : α → Option β} {g : α → β} {l : List α} (ok : ∀ x ∈ l, f x = some (g x)) :
    l.mapM f = some (l.map g) := by
  induction l with
  | nil => rfl
  | cons x rest ih =>
    rw [List.mapM_cons,ok x (List.mem_cons_self ..),ih fun y member => ok y (List.mem_cons_of_mem _ member)]
    rfl

theorem receivedFlat (batch : List SysRouteEntry) : received ((batch.map SysRouteEntry.bytes).flatMap fun data =>
    [.write .tun (.sysRt data),.write .peer (.sysRt [])]) = batch := by
  induction batch with
  | nil => rfl
  | cons e rest ih =>
    simp only [List.map_cons,List.flatMap_cons]
    exact congrArg (e :: ·) ih

theorem batchReceived (batch : List SysRouteEntry) (small : batch.length ≤ 101) :
    byteAt (batchFrame batch) 0 = Kind.ROUTE ∧ 4 + 12 * (byteAt (batchFrame batch) 1).toNat = (batchFrame batch).length ∧
    (batchFrame batch).length ≤ 1500 ∧
    ∃ effects, WsClient.handleRouteMsg (batchFrame batch) = some effects ∧ received effects = batch := by
  have size : (byteAt (batchFrame batch) 1).toNat = batch.length := by
    change (BitVec.ofNat 8 batch.length).toNat = batch.length
    rw [BitVec.toNat_ofNat]
    omega
  have long : (batchFrame batch).length = 4 + 12 * batch.length := by
    rw [batchFrame,sysRoute,List.length_append,flatLength]
    rfl
  refine ⟨rfl,by rw [size,long],by omega,_,?_,receivedFlat batch⟩
  have entries : (List.range batch.length).mapM (WsClient.routeEntry (batchFrame batch)) =
      some (batch.map SysRouteEntry.bytes) := by
    have one (i : Nat) (member : i ∈ List.range batch.length) : WsClient.routeEntry (batchFrame batch) i =
        some ((batch.map SysRouteEntry.bytes).getD i []) := by
      have inside := List.mem_range.mp member
      have there : field (batchFrame batch) (4 + 12 * i) 12 = batch[i].bytes := by
        rw [← entryAt batch i inside,field,← List.drop_drop]
        rfl
      rw [WsClient.routeEntry,if_pos (by omega),there]
      simp [inside]
    rw [mapMSome one]
    refine congrArg some (List.ext_getElem (by simp) fun i left right => ?_)
    simp at left
    simp [left]
  rw [WsClient.handleRouteMsg,if_neg (by omega),size,entries]
  rfl

theorem matchingRules {ip : IP4} {routes : List SysRoute} (fixed : ∀ rt ∈ routes, rt.dev.host = rt.dev.net) :
    matching ip routes = (routes.filter (fun rt => Contains rt ip)).map (fun rt => ⟨rt.dst.net,rt.dst.mask,rt.next⟩) := by
  refine congrArg (List.map _) (List.filter_congr fun rt member => ?_)
  exact decide_eq_decide.mpr (by rw [Contains,fixed rt member])

theorem routesPushed (s : State) (p : Ptr) (fixed : ∀ rt ∈ s.routes, rt.dev.host = rt.dev.net) :
    ∃ frames : List Bytes, (updateSysRoute s p).2 = frames.map (.send p) ∧
      (∃ effects, frames.mapM WsClient.handleRouteMsg = some effects ∧ effects.flatMap received =
        (s.routes.filter (fun rt => Contains rt (s.mem p).ip)).map (fun rt => ⟨rt.dst.net,rt.dst.mask,rt.next⟩)) ∧
      ∀ frame ∈ frames, byteAt frame 0 = Kind.ROUTE ∧ 4 + 12 * (byteAt frame 1).toNat = frame.length ∧
        frame.length ≤ 1500 := by
  obtain ⟨batches,sent,order,small⟩ := batchSpec (s.mem p).ip s.routes [] (by simp)
  refine ⟨batches.map batchFrame,congrArg (List.map (Effect.send p)) sent,?_,fun frame member => ?_⟩
  · choose! effects handled taken using fun batch member => (batchReceived batch (small batch member)).2.2.2
    refine ⟨batches.map effects,?_,?_⟩
    · rw [List.mapM_map]
      exact mapMSome handled
    · have each : batches.map (fun batch => received (effects batch)) = batches :=
        (List.map_congr_left taken).trans (List.map_id batches)
      rw [List.flatMap_map,List.flatMap_def,each,order,List.nil_append,matchingRules fixed]
  · obtain ⟨batch,inside,rfl⟩ := List.mem_map.mp member
    obtain ⟨kind,size,fits,_⟩ := batchReceived batch (small batch inside)
    exact ⟨kind,size,fits⟩

/- 250 rules for the network of one client. -/
def rule : SysRoute := ⟨⟨⟨10,0,0,0⟩,⟨255,0,0,0⟩⟩,⟨⟨192,168,7,0⟩,⟨255,255,255,0⟩⟩,⟨10,0,0,9⟩⟩

def pushing : State :=
  (initial [] ⟨IP4.zero,IP4.zero⟩ (List.replicate 250 rule)).write 0 {WsCtx.fresh with ip := ⟨10,0,0,1⟩}

theorem manyPushed : ∃ frames : List Bytes, (updateSysRoute pushing 0).2 = frames.map (.send 0) ∧
    ∃ effects, frames.mapM WsClient.handleRouteMsg = some effects ∧
      effects.flatMap received = List.replicate 250 ⟨⟨192,168,7,0⟩,⟨255,255,255,0⟩,⟨10,0,0,9⟩⟩ := by
  have fixed : ∀ rt ∈ pushing.routes, rt.dev.host = rt.dev.net := by
    intro rt member
    rw [List.eq_of_mem_replicate member]
    decide
  have all : (pushing.routes.filter (fun rt => Contains rt (pushing.mem 0).ip)).map
      (fun rt => (⟨rt.dst.net,rt.dst.mask,rt.next⟩ : SysRouteEntry)) =
      List.replicate 250 ⟨⟨192,168,7,0⟩,⟨255,255,255,0⟩,⟨10,0,0,9⟩⟩ := by decide +kernel
  obtain ⟨frames,sent,⟨effects,handled,taken⟩,_⟩ := routesPushed pushing 0 fixed
  exact ⟨frames,sent,effects,handled,taken.trans all⟩

end Candy.RoutePush
