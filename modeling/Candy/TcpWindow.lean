import Candy.TcpBackward

/-! The receive window of the lwIP side. What lwIP delivered waits in forwardBuf,
was written to the landing socket and is to be confirmed, or has been confirmed. The
middle one is a size_t, so the sum is exact while lwIP keeps to a window below 2^64. -/
namespace Candy.SessionTcp
open Runs

structure Credited (s : State) : Prop where
  whole : s.sent ++ s.forwardBuf = s.delivered
  credit : s.closing = false → ∃ lost, s.recved.sum + s.pendingRecved + 2^64 * lost = s.sent.length
  chunks : ∀ n ∈ s.recved, 1 ≤ n ∧ n ≤ 65535

structure Written (s t : State) (written : Bytes) : Prop where
  delivered : t.delivered = s.delivered
  recved : t.recved = s.recved
  whole : written ++ t.forwardBuf = s.forwardBuf
  sent : t.sent = s.sent ++ written
  credit : t.closing = false → s.closing = false ∧ t.pendingRecved =
    if written.length = 0 then s.pendingRecved else fetchAdd s.pendingRecved written.length

theorem ackChunksSpec (acked : Nat) : (ackChunks acked).sum = acked ∧ ∀ n ∈ ackChunks acked, 1 ≤ n ∧ n ≤ 65535 := by
  fun_induction ackChunks acked with
  | case1 => simp
  | case2 acked nonzero ih =>
    obtain ⟨sum,bounds⟩ := ih
    refine ⟨by rw [List.sum_cons,sum]; omega,fun n member => ?_⟩
    rcases List.mem_cons.mp member with rfl | rest
    · omega
    · exact bounds n rest

section
variable {s t : State} {written : Bytes}

theorem Written.quiet (same : t = {s with
    pcb := t.pcb, listed := t.listed, fd := t.fd, connected := t.connected, wantWrite := t.wantWrite,
    readPaused := t.readPaused, fdEof := t.fdEof, self := t.self, backwardBuf := t.backwardBuf,
    backwardBytes := t.backwardBytes, watcher := t.watcher, tasks := t.tasks, stackTasks := t.stackTasks, pc := t.pc,
    finned := t.finned, received := t.received, accepted := t.accepted, ended := t.ended, netCloses := t.netCloses}) :
    Written s t [] := by
  rw [same]
  exact ⟨rfl,rfl,rfl,by rw [List.append_nil],fun opened => ⟨opened,rfl⟩⟩

theorem Credited.advance (credited : Credited s) (wrote : Written s t written) : Credited t := by
  refine ⟨?_,fun opened => ?_,by rw [wrote.recved]; exact credited.chunks⟩
  · rw [wrote.sent,List.append_assoc,wrote.whole,wrote.delivered]
    exact credited.whole
  · obtain ⟨before,pending⟩ := wrote.credit opened
    obtain ⟨lost,sum⟩ := credited.credit before
    rw [wrote.recved,wrote.sent,pending,List.length_append]
    split
    · exact ⟨lost,by omega⟩
    · refine ⟨lost + (s.pendingRecved + written.length) / 2^64,?_⟩
      have parts := Nat.div_add_mod (s.pendingRecved + written.length) (2^64)
      unfold fetchAdd
      omega

theorem Credited.received {data : Bytes} (credited : Credited s) : Credited (onRecv s data) := by
  refine ⟨?_,credited.credit,credited.chunks⟩
  change s.sent ++ (s.forwardBuf ++ data) = s.delivered ++ data
  rw [← List.append_assoc,credited.whole]

theorem Credited.confirmed (credited : Credited s) : Credited (ackRecvedToLwip s) := by
  unfold ackRecvedToLwip
  split
  · exact credited
  · obtain ⟨sum,bounds⟩ := ackChunksSpec s.pendingRecved
    refine ⟨credited.whole,fun opened => ?_,fun n member => ?_⟩
    · obtain ⟨lost,total⟩ := credited.credit opened
      refine ⟨lost,?_⟩
      change (s.recved ++ ackChunks s.pendingRecved).sum + 0 + 2^64 * lost = s.sent.length
      rw [List.sum_append,sum]
      omega
    · rcases List.mem_append.mp member with early | late
      · exact credited.chunks n early
      · exact bounds n late

theorem reactorWritten {e : Event} (reactor : e.onReactor = true) (stepped : step s e t) : ∃ written, Written s t written := by
  cases reactedOf reactor stepped with
  | turned | connected | data | eof | paused | void | add | resumed | kept | del | drop => exact ⟨[],.quiet rfl⟩
  | blocked _ _ _ loop | drained _ _ _ loop => exact ⟨_,rfl,rfl,(flushLoopSpec loop).1,rfl,fun opened => ⟨opened,rfl⟩⟩
  | late closes closing => exact ⟨_,rfl,rfl,closes.whole,rfl,fun wrong => by rw [closing] at wrong; contradiction⟩
  | closed closes => exact ⟨_,rfl,rfl,closes.whole,rfl,nofun⟩

theorem pumpWritten {answers : List TcpWrite} (ok : pumpToLwip s answers = some t) : Written s t [] := by
  unfold pumpToLwip at ok
  split at ok
  · cases Option.some.inj ok; exact .quiet rfl
  obtain ⟨⟨written,left,failed⟩,_,same⟩ := Option.map_eq_some_iff.mp ok
  subst same
  cases failed with
  | true => exact .quiet rfl
  | false =>
    obtain ⟨u,pumped,same⟩ := pumpedEq s written left
    dsimp only
    rw [pumped,same]
    split <;> exact .quiet rfl

theorem taskCredited {answers : List TcpWrite} {task : StackTask} {rest : List StackTask} (credited : Credited s)
    (ok : runStackTask {s with stackTasks := rest} answers task = some t) : Credited t := by
  have popped : Credited {s with stackTasks := rest} := credited.advance (.quiet rfl)
  cases task with
  | writeToLwip data =>
    simp only [runStackTask,writeToLwip] at ok
    split at ok
    · cases Option.some.inj ok; exact popped
    · have moved : Credited {s with stackTasks := rest, backwardBuf := s.backwardBuf ++ data} := credited.advance (.quiet rfl)
      exact moved.advance (pumpWritten ok)
  | onFdEof =>
    simp only [runStackTask,onFdEofFromStack] at ok
    obtain ⟨u,pumped,rfl⟩ := Option.map_eq_some_iff.mp ok
    have ended : Credited {s with stackTasks := rest, fdEof := true} := credited.advance (.quiet rfl)
    have after := ended.advance (pumpWritten pumped)
    split
    · exact after.advance (.quiet rfl)
    · exact after
  | closeFromStack => cases Option.some.inj ok; exact popped.advance (.quiet rfl)
  | ackRecved => cases Option.some.inj ok; exact popped.confirmed

theorem creditedStep {e : Event} (credited : Credited s) (stepped : step s e t) : Credited t := by
  cases reactor : e.onReactor with
  | true =>
    obtain ⟨written,wrote⟩ := reactorWritten reactor stepped
    exact credited.advance wrote
  | false =>
    cases answeredOf reactor stepped with
    | recv => exact credited.received
    | fin => exact credited.advance (.quiet rfl)
    | sent _ pumped => exact credited.advance (pumpWritten pumped)
    | errLate | teardownLate => exact credited.advance (.quiet rfl)
    | err | teardown =>
      exact credited.advance ⟨rfl,rfl,rfl,(List.append_nil _).symm,fun opened => absurd opened Bool.noConfusion⟩
    | stackRan _ taken => exact taskCredited credited taken

end

/- `window` is what lwIP promises: the most it delivers beyond what was confirmed. -/
theorem windowCredited (events : List Event) (s : State) (run : Run step State.start events s) :
    (∀ n ∈ s.recved, 1 ≤ n ∧ n ≤ 65535) ∧
    (s.closing = false → s.delivered.length ≡ s.forwardBuf.length + s.pendingRecved + s.recved.sum [MOD 2^64] ∧
      ∀ window, s.delivered.length ≤ s.recved.sum + window → s.forwardBuf.length ≤ window ∧
        (window < 2^64 → s.delivered.length = s.forwardBuf.length + s.pendingRecved + s.recved.sum)) := by
  have credited := @Run.invariant _ _ step _ Credited
    ⟨rfl,fun _ => ⟨0,rfl⟩,fun _ member => absurd member List.not_mem_nil⟩
    (fun _ _ _ before stepped => creditedStep before stepped) _ _ run
  refine ⟨credited.chunks,fun opened => ?_⟩
  obtain ⟨lost,sum⟩ := credited.credit opened
  have parts := congrArg List.length credited.whole
  rw [List.length_append] at parts
  refine ⟨?_,fun window promised => ⟨by omega,fun small => ?_⟩⟩
  · have total : s.delivered.length = 2^64 * lost + (s.forwardBuf.length + s.pendingRecved + s.recved.sum) := by omega
    rw [total]
    exact Nat.ModEq.modulus_mul_add
  · have none_ : lost = 0 := by omega
    rw [none_] at sum
    omega

/- Three bytes delivered, two written in two flushes, one confirmation for both. -/
def confirming : List Event :=
  [.ran [],.fdEvent .WRITE,.connected true,.flushed [],.recv [1,2,3],.ran [.wrote 1,.wouldBlock],.fdEvent .WRITE,
    .flushed [.wrote 1,.wouldBlock],.stackRan []]

theorem confirmedOnce : ∃ s, Run step State.start confirming s ∧ s.recved = [2] ∧ s.closing = false ∧
    (∀ n ∈ s.recved, 1 ≤ n ∧ n ≤ 65535) ∧ s.delivered.length = s.forwardBuf.length + s.pendingRecved + s.recved.sum := by
  obtain ⟨s,ok,recved,opened,delivered⟩ : ∃ s, execute handle State.start confirming = some s ∧ s.recved = [2] ∧
      s.closing = false ∧ s.delivered.length = 3 := by
    have outcome : (execute handle State.start confirming).map (fun s => (s.recved,s.closing,s.delivered.length)) =
        some ([2],false,3) := by decide +kernel
    obtain ⟨s,ok,same⟩ := Option.map_eq_some_iff.mp outcome
    simp only [Prod.mk.injEq] at same
    exact ⟨s,ok,same⟩
  have run : Run step State.start confirming s := executeRun (fun _ _ _ taken => taken) ok
  obtain ⟨chunks,credit⟩ := windowCredited confirming s run
  refine ⟨s,run,recved,opened,chunks,((credit opened).2 1 ?_).2 (by decide)⟩
  rw [delivered,recved]
  decide

end Candy.SessionTcp
