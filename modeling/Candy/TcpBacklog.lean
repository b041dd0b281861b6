import Candy.TcpBackward

/-! The counter of the bytes on their way from the landing socket to lwIP. The
reactor thread adds what it queues, the NetStack thread subtracts what lwIP took, so
between two steps it counts the buffer and the queue and stays near its mark. -/
namespace Candy.SessionTcp
open Runs

structure Booked (s : State) : Prop where
  exact : s.pcb = true → s.backwardBytes = s.backwardBuf.length + (s.stackTasks.flatMap carried).length
  bound : s.backwardBytes ≤ highWater + 65535

theorem Booked.kept {s t : State} (booked : Booked s) (pcb : t.pcb = true → s.pcb = true)
    (bytes : t.backwardBytes = s.backwardBytes) (buf : t.backwardBuf = s.backwardBuf)
    (tasks : t.stackTasks.flatMap carried = s.stackTasks.flatMap carried) : Booked t := by
  refine ⟨fun opened => ?_,by rw [bytes]; exact booked.bound⟩
  rw [bytes,buf,tasks]
  exact booked.exact (pcb opened)

theorem Booked.shut {s t : State} (booked : Booked s) (shut : t.pcb = false) (bytes : t.backwardBytes = s.backwardBytes) :
    Booked t :=
  ⟨fun opened => by rw [shut] at opened; contradiction,by rw [bytes]; exact booked.bound⟩

theorem fetchSubEq {a n : Nat} (enough : n ≤ a) (small : a < 2^64) : fetchSub a n = a - n := by
  unfold fetchSub
  omega

theorem fetchAddEq {a n : Nat} (small : a + n < 2^64) : fetchAdd a n = a + n := Nat.mod_eq_of_lt small

theorem closedBooked {s : State} (booked : Booked s) : Booked (closeFromStack s) := booked.shut rfl rfl

theorem pumpBooked {s t : State} {answers : List TcpWrite} (booked : Booked s) (ok : pumpToLwip s answers = some t) :
    Booked t ∧ t.accepted.length ≤ s.accepted.length + s.backwardBytes := by
  unfold pumpToLwip at ok
  split at ok
  · cases Option.some.inj ok
    exact ⟨booked,Nat.le_add_right _ _⟩
  rename_i opened
  obtain ⟨⟨written,left,failed⟩,loop,same⟩ := Option.map_eq_some_iff.mp ok
  have exact := booked.exact (by simpa using opened)
  have bound := booked.bound
  have parts := congrArg List.length (pumpSpec loop).1
  rw [List.length_append] at parts
  subst same
  cases failed with
  | true =>
    refine ⟨booked.kept id rfl rfl rfl,?_⟩
    change (s.accepted ++ written).length ≤ _
    rw [List.length_append]
    omega
  | false =>
    have taken : (if written.isEmpty then s.backwardBytes else fetchSub s.backwardBytes written.length) =
        s.backwardBytes - written.length := by
      split
      · rename_i nothing
        rw [List.isEmpty_iff.mp nothing]
        rfl
      · exact fetchSubEq (by omega) (by unfold highWater at bound; omega)
    have pumped : Booked {s with
        accepted := s.accepted ++ written, backwardBuf := left, backwardBytes := s.backwardBytes - written.length} := by
      refine ⟨fun _ => ?_,?_⟩
      · change s.backwardBytes - written.length = left.length + (s.stackTasks.flatMap carried).length
        omega
      · change s.backwardBytes - written.length ≤ _
        omega
    have accepted : (s.accepted ++ written).length ≤ s.accepted.length + s.backwardBytes := by
      rw [List.length_append]
      omega
    simp only [afterPump,Bool.false_eq_true,if_false,taken,updateReadInterest]
    split
    · split
      · exact ⟨closedBooked (pumped.kept id rfl rfl rfl),accepted⟩
      · exact ⟨pumped.kept id rfl rfl rfl,accepted⟩
    · split
      · exact ⟨closedBooked pumped,accepted⟩
      · exact ⟨pumped,accepted⟩

theorem taskBooked {s t : State} {answers : List TcpWrite} {task : StackTask} {rest : List StackTask} (booked : Booked s)
    (queue : s.stackTasks = task::rest) (ok : runStackTask {s with stackTasks := rest} answers task = some t) :
    Booked t ∧ t.accepted.length ≤ s.accepted.length + s.backwardBytes := by
  have popped (none_ : carried task = []) : Booked {s with stackTasks := rest} :=
    booked.kept id rfl rfl (by rw [queue,List.flatMap_cons,none_]; rfl)
  have same : s.accepted.length ≤ s.accepted.length + s.backwardBytes := Nat.le_add_right _ _
  cases task with
  | writeToLwip data =>
    simp only [runStackTask,writeToLwip] at ok
    split at ok
    · rename_i shut
      cases Option.some.inj ok
      exact ⟨booked.shut (by simpa using shut) rfl,same⟩
    · have moved : Booked {s with stackTasks := rest, backwardBuf := s.backwardBuf ++ data} := by
        refine ⟨fun opened => ?_,booked.bound⟩
        have exact := booked.exact opened
        rw [queue,List.flatMap_cons,List.length_append] at exact
        change s.backwardBytes = (s.backwardBuf ++ data).length + (rest.flatMap carried).length
        rw [List.length_append,exact,Nat.add_assoc]
        rfl
      have pumped := pumpBooked moved ok
      exact pumped
  | onFdEof =>
    simp only [runStackTask,onFdEofFromStack] at ok
    obtain ⟨u,pumped,rfl⟩ := Option.map_eq_some_iff.mp ok
    have here : Booked {s with stackTasks := rest, fdEof := true} := (popped rfl).kept id rfl rfl rfl
    obtain ⟨after,accepted⟩ := pumpBooked here pumped
    split
    · exact ⟨closedBooked after,accepted⟩
    · exact ⟨after,accepted⟩
  | closeFromStack => cases Option.some.inj ok; exact ⟨closedBooked (popped rfl),same⟩
  | ackRecved =>
    simp only [runStackTask,ackRecvedToLwip] at ok
    split at ok
    · cases Option.some.inj ok; exact ⟨popped rfl,same⟩
    · cases Option.some.inj ok; exact ⟨(popped rfl).kept id rfl rfl rfl,same⟩

inductive Counted (s t : State) : Prop where
  | same (bytes : t.backwardBytes = s.backwardBytes) (received : t.received = s.received)
  | read (data : Bytes) (below : s.backwardBytes < highWater) (short : data.length ≤ 65536)
      (bytes : t.backwardBytes = fetchAdd s.backwardBytes data.length) (received : t.received = s.received ++ data)

theorem reactorCounted {s t : State} {e : Event} (reactor : e.onReactor = true) (stepped : step s e t) : Counted s t := by
  cases reactedOf reactor stepped with
  | data _ below _ short => exact .read _ below short rfl rfl
  | _ => exact .same rfl rfl

/- What is read is queued, so the counter and the queue grow alike. -/
theorem reactorBooked {s t : State} {e : Event} (booked : Booked s) (reactor : e.onReactor = true) (stepped : step s e t) :
    Booked t := by
  have across := acrossStep reactor stepped
  obtain ⟨more,queue,received,_⟩ := across.stackTasks
  have pcb : t.pcb = true → s.pcb = true := fun opened => across.pcb ▸ opened
  cases reactorCounted reactor stepped with
  | same bytes unread =>
    have nothing : more.flatMap carried = [] := List.append_cancel_left (by rw [← received,unread,List.append_nil])
    exact booked.kept pcb bytes across.backwardBuf (by rw [queue,List.flatMap_append,nothing,List.append_nil])
  | read data below short bytes read =>
    have carries : more.flatMap carried = data := List.append_cancel_left (received.symm.trans read)
    have sum : t.backwardBytes = s.backwardBytes + data.length :=
      bytes.trans (fetchAddEq (by unfold highWater at below; omega))
    refine ⟨fun opened => ?_,by omega⟩
    have exact := booked.exact (pcb opened)
    rw [sum,across.backwardBuf,queue,List.flatMap_append,List.length_append,carries]
    omega

theorem bookedStep {s t : State} {e : Event} (booked : Booked s) (stepped : step s e t) :
    Booked t ∧ t.accepted.length ≤ s.accepted.length + s.backwardBytes := by
  cases reactor : e.onReactor with
  | true =>
    refine ⟨reactorBooked booked reactor stepped,?_⟩
    rw [(acrossStep reactor stepped).accepted]
    exact Nat.le_add_right _ _
  | false =>
    have same : s.accepted.length ≤ s.accepted.length + s.backwardBytes := Nat.le_add_right _ _
    cases answeredOf reactor stepped with
    | recv => exact ⟨booked.kept id rfl rfl rfl,same⟩
    | fin => exact ⟨booked.shut rfl rfl,same⟩
    | sent _ pumped => exact pumpBooked booked pumped
    | errLate | err | teardownLate | teardown => exact ⟨booked.shut rfl rfl,same⟩
    | stackRan queue taken => exact taskBooked booked queue taken

/- The bytes a step adds to accepted are those it subtracts from the counter. -/
theorem backlogExact (events : List Event) (s : State) (run : Run step State.start events s) :
    (s.pcb = true → s.backwardBytes = s.backwardBuf.length + (s.stackTasks.flatMap carried).length) ∧
    s.backwardBytes ≤ highWater + 65535 ∧
    ∀ e t, step s e t → t.accepted.length ≤ s.accepted.length + s.backwardBytes := by
  have booked := @Run.invariant _ _ step _ Booked ⟨fun _ => rfl,Nat.zero_le _⟩
    (fun _ _ _ before stepped => (bookedStep before stepped).1) _ _ run
  exact ⟨booked.exact,booked.bound,fun e t stepped => (bookedStep booked stepped).2⟩

/- Two of five bytes taken and the rest in the buffer and the queue. -/
def backlogged : List Event :=
  [.ran [],.fdEvent .WRITE,.connected true,.flushed [],.fdEvent .READ,.read (.data [1,2,3]),.read (.data [4,5]),
    .stackRan [⟨2,.ok⟩,⟨0,.ok⟩]]

theorem backlogCounted : ∃ s, Run step State.start backlogged s ∧ s.pcb = true ∧ s.backwardBytes = 3 ∧
    s.backwardBytes = s.backwardBuf.length + (s.stackTasks.flatMap carried).length := by
  obtain ⟨s,ok,opened,bytes⟩ : ∃ s, execute handle State.start backlogged = some s ∧ s.pcb = true ∧ s.backwardBytes = 3 :=
    ⟨_,rfl,by decide,by decide⟩
  have run : Run step State.start backlogged s := executeRun (fun _ _ _ taken => taken) ok
  exact ⟨s,run,opened,bytes,(backlogExact backlogged s run).1 opened⟩

end Candy.SessionTcp
