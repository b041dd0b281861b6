import Candy.Runs
import Candy.SessionTcp

/-! Poll interest of the landing socket. Reactor::mod overwrites the whole set, and
four places call it for two reasons. After a blocked write the set holds WRITE, and
it keeps it exactly as long as no pause and no resume of reading falls in between. -/
namespace Candy.SessionTcp
open Runs

/- A blocked write will be retried, while the session is open and its fd not at its end. -/
def Retried (s : State) : Prop := s.connected = true → s.closing = false → s.ended = false → s.wantWrite = true →
  ∃ iw, s.watcher = some iw ∧ iw.write = true

/- Reading is paused or resumed only while no write is blocked. -/
def Undisturbed (s : State) : Event → Prop
  | .paused => s.closing = false → s.ended = false → s.wantWrite = false
  | .ran _ => s.tasks.head? = some (.resumeRead true) → s.closing = false → s.ended = false → s.wantWrite = false
  | _ => True

structure Watched (s : State) : Prop where
  retried : Retried s
  opened : s.closing = false → s.fd = true
  blocked : s.wantWrite = true → s.connected = true
  dialing : s.pc = .connecting → s.connected = false
  present : s.connected = true ∨ s.pc = .connecting → s.closing = false → s.ended = false → s.watcher.isSome = true
  leaving : Task.del ∈ s.tasks ∨ Task.drop ∈ s.tasks → s.closing = true

theorem closedWatched {s t : State} (watched : Watched s) (closing : t.closing = true)
    (wantWrite : t.wantWrite = s.wantWrite) (connected : t.connected = s.connected)
    (pc : t.pc = .connecting → s.pc = .connecting) : Watched t where
  retried _ still := by rw [closing] at still; contradiction
  opened still := by rw [closing] at still; contradiction
  blocked want := by rw [connected]; exact watched.blocked (wantWrite ▸ want)
  dialing at_ := by rw [connected]; exact watched.dialing (pc at_)
  present _ still := by rw [closing] at still; contradiction
  leaving _ := closing

theorem besideWatched {s t : State} (watched : Watched s) (beside : Beside s t) : Watched t := by
  refine ⟨?_,?_,?_,?_,?_,fun leaves => ?_⟩
  · unfold Retried
    rw [beside.connected,beside.closing,beside.ended,beside.wantWrite,beside.watcher]
    exact watched.retried
  · rw [beside.closing,beside.fd]; exact watched.opened
  · rw [beside.wantWrite,beside.connected]; exact watched.blocked
  · rw [beside.pc,beside.connected]; exact watched.dialing
  · rw [beside.connected,beside.pc,beside.closing,beside.ended,beside.watcher]; exact watched.present
  · rw [beside.closing]
    refine watched.leaving (leaves.imp (fun member => beside.old member ?_ ?_) fun member => beside.old member ?_ ?_)
    all_goals simp

theorem keptWatched {s t : State} (watched : Watched s) (same : t = {s with
    pc := t.pc, tasks := t.tasks, stackTasks := t.stackTasks, backwardBytes := t.backwardBytes, received := t.received,
    forwardBuf := t.forwardBuf, sent := t.sent}) (fewer : t.tasks.Sublist s.tasks)
    (dialing : t.pc = .connecting → s.connected = false ∧ s.watcher.isSome = true) : Watched t := by
  rw [same]
  refine ⟨watched.retried,watched.opened,watched.blocked,fun at_ => (dialing at_).1,fun here still open_ => ?_,fun leaves => ?_⟩
  · exact here.elim (fun here => watched.present (.inl here) still open_) fun at_ => (dialing at_).2
  · exact watched.leaving (leaves.imp (fewer.subset ·) (fewer.subset ·))

theorem Watched.unwanted {s : State} (watched : Watched s) (at_ : s.pc = .connecting) : s.wantWrite = false := by
  refine Bool.eq_false_iff.2 fun want => ?_
  have unconnected := watched.dialing at_
  rw [watched.blocked want] at unconnected
  contradiction

theorem reactorWatched {s t : State} {e : Event} (watched : Watched s) (undisturbed : Undisturbed s e)
    (reactor : e.onReactor = true) (stepped : step s e t) : Watched t := by
  have fewer : t.tasks.Sublist s.tasks := by rw [reactorTasks reactor stepped]; exact List.drop_sublist ..
  have leaving (leaves : Task.del ∈ t.tasks ∨ Task.drop ∈ t.tasks) : s.closing = true :=
    watched.leaving (leaves.imp (fewer.subset ·) (fewer.subset ·))
  cases reactedOf reactor stepped with
  | turned turns =>
    refine keptWatched watched rfl fewer fun at_ => ?_
    cases turns with
    | reported _ present dialing => exact ⟨dialing at_,present⟩
    | full => cases at_
    | wouldBlock => exact absurd at_ (afterReadingRests _).1
  | connected dialing =>
    refine ⟨fun _ _ _ want => ?_,watched.opened,fun _ => rfl,nofun,fun _ still open_ => ?_,leaving⟩
    · exact absurd (want.symm.trans (watched.unwanted dialing)) Bool.noConfusion
    · exact Option.isSome_map.trans (watched.present (.inr dialing) still open_)
  | data here => exact keptWatched watched rfl fewer fun at_ => by rw [here] at at_; cases at_
  | @eof writable =>
    exact ⟨fun _ _ open_ => by contradiction,watched.opened,watched.blocked,fun at_ => absurd at_ (afterReadingRests writable).1,
      fun _ _ open_ => by contradiction,leaving⟩
  | @paused writable =>
    have after := (afterReadingRests writable).1
    refine ⟨fun _ still open_ want => ?_,watched.opened,watched.blocked,fun at_ => absurd at_ after,
      fun here still open_ => ?_,leaving⟩
    · exact absurd (want.symm.trans (undisturbed still open_)) Bool.noConfusion
    · exact (keptPresent s .NONE).trans (watched.present (.inl (here.resolve_right after)) still open_)
  | void => exact keptWatched watched rfl fewer nofun
  | blocked _ _ ready =>
    refine ⟨fun here still open_ _ => ?_,watched.opened,fun _ => ready,nofun,
      fun _ still open_ => ?_,leaving⟩
    · obtain ⟨iw,found⟩ := Option.isSome_iff_exists.mp (watched.present (.inl ready) still open_)
      exact ⟨.READ ||| .WRITE,by rw [found]; rfl,rfl⟩
    · exact Option.isSome_map.trans (watched.present (.inl ready) still open_)
  | drained _ _ ready =>
    refine ⟨fun _ _ _ want => by contradiction,watched.opened,fun want => by contradiction,nofun,
      fun _ still open_ => ?_,leaving⟩
    have present := watched.present (.inl ready) still open_
    simp only
    split
    · rwa [Option.isSome_map]
    · exact present
  | add => exact ⟨fun _ _ _ _ => ⟨.WRITE,rfl,rfl⟩,watched.opened,watched.blocked,watched.dialing,fun _ _ _ => rfl,leaving⟩
  | resumed _ queue still =>
    refine ⟨fun _ _ open_ want => ?_,watched.opened,watched.blocked,watched.dialing,fun here _ open_ => ?_,leaving⟩
    · exact absurd (want.symm.trans (undisturbed (by rw [queue]; rfl) still open_)) Bool.noConfusion
    · exact Option.isSome_map.trans (watched.present here still open_)
  | kept idle => exact keptWatched watched rfl fewer fun at_ => by rw [idle] at at_; cases at_
  | del _ queue =>
    exact closedWatched watched (watched.leaving (.inl (by rw [queue]; exact List.mem_cons_self))) rfl rfl fun at_ => at_
  | drop _ queue =>
    exact closedWatched watched (watched.leaving (.inr (by rw [queue]; exact List.mem_cons_self))) rfl rfl fun at_ => at_
  | late closes => exact keptWatched watched rfl fewer fun at_ => absurd at_ closes.rests.1
  | closed closes => exact closedWatched watched rfl rfl rfl fun at_ => absurd at_ closes.rests.1

theorem watchedStep {s t : State} {e : Event} (watched : Watched s) (undisturbed : Undisturbed s e)
    (stepped : step s e t) : Watched t := by
  cases reactor : e.onReactor with
  | true => exact reactorWatched watched undisturbed reactor stepped
  | false =>
    cases answeredOf reactor stepped with
    | recv =>
      refine ⟨watched.retried,watched.opened,watched.blocked,watched.dialing,watched.present,fun leaves => ?_⟩
      exact watched.leaving (by simpa [onRecv] using leaves)
    | fin =>
      have told : Watched {s with finned := true} :=
        ⟨watched.retried,watched.opened,watched.blocked,watched.dialing,watched.present,watched.leaving⟩
      exact besideWatched told (closeFromStackBeside _)
    | sent _ pumped => exact besideWatched watched (pumpBeside pumped)
    | errLate closing | teardownLate closing => exact closedWatched watched closing rfl rfl fun at_ => at_
    | err | teardown => exact closedWatched watched rfl rfl rfl fun at_ => at_
    | stackRan _ taken => exact besideWatched watched ((Beside.quiet (s := s) rfl).trans (stackTaskBeside taken))

theorem startWatched : Watched State.start :=
  ⟨fun connected => by contradiction,fun _ => rfl,fun want => by contradiction,fun at_ => by contradiction,
    fun here => by simp [State.start] at here,fun leaves => by simp [State.start] at leaves⟩

theorem disturbedStep {s t : State} {e : Event} (watched : Watched s) (disturbed : ¬ Undisturbed s e)
    (stepped : step s e t) : ¬ Retried t := by
  have lost (events : ReactorEvent) (still : s.closing = false) (open_ : s.ended = false) (want : s.wantWrite = true)
      (quiet : events.write = false) (connected : t.connected = s.connected) (closing : t.closing = s.closing)
      (ended : t.ended = s.ended) (wantWrite : t.wantWrite = s.wantWrite)
      (watcher : t.watcher = s.watcher.map fun _ => events) : ¬ Retried t := by
    intro retried
    obtain ⟨iw,found,writable⟩ := retried (connected.trans (watched.blocked want)) (closing.trans still)
      (ended.trans open_) (wantWrite.trans want)
    rw [watcher] at found
    obtain ⟨_,_,same⟩ := Option.map_eq_some_iff.mp found
    rw [← same,quiet] at writable
    contradiction
  cases stepCases stepped with
  | paused =>
    simp only [Undisturbed,Classical.not_imp,Bool.not_eq_false] at disturbed
    obtain ⟨still,open_,want⟩ := disturbed
    unfold pauseRead at lost ⊢
    rw [modEq] at lost ⊢
    exact lost .NONE still open_ want rfl rfl rfl rfl rfl (if_pos (watched.opened still))
  | ran _ queue taken =>
    simp only [Undisturbed,Classical.not_imp,Bool.not_eq_false] at disturbed
    obtain ⟨first,still,open_,want⟩ := disturbed
    rw [queue] at first
    cases Option.some.inj first
    simp only [runTask,still,Bool.not_false,Bool.and_self,if_true] at taken
    cases Option.some.inj taken
    rw [applyModEq] at lost ⊢
    exact lost .READ still open_ want rfl rfl still.symm rfl rfl rfl
  | _ => exact absurd trivial disturbed

theorem interestExact (events : List Event) (s : State) :
    Run (Guarded step Undisturbed) State.start events s ↔ Run (Keeping step Retried) State.start events s :=
  guardExact startWatched (fun _ watched => watched.retried)
    (fun _ _ _ watched undisturbed stepped => watchedStep watched undisturbed stepped)
    fun _ _ _ watched disturbed stepped => disturbedStep watched disturbed stepped

/- One byte of two is written, then 256 KiB come the other way. -/
def stalled (chunk : Bytes) : List Event :=
  ([.ran [],.fdEvent .WRITE,.connected true,.flushed [],.recv [1,2],.ran [.wrote 1,.wouldBlock],.fdEvent .READ] :
    List Event) ++ (List.replicate 4 (.read (.data chunk)) : List Event) ++ ([.read .wouldBlock,.paused] : List Event)

theorem stalledLost : ∃ s, Run step State.start (stalled (List.replicate 65536 0)) s ∧
    s.forwardBuf = [2] ∧ s.watcher = some .NONE ∧ ¬ Retried s := by
  have full : (List.replicate 65536 (0 : Byte)).length = 65536 := List.length_replicate
  generalize List.replicate 65536 (0 : Byte) = chunk at full ⊢
  have outcome : (execute handle State.start (stalled chunk)).map (fun s =>
      (s.connected,s.closing,s.ended,s.wantWrite,s.forwardBuf,s.watcher)) =
      some (true,false,false,true,[2],some .NONE) := by
    simp [stalled,execute,handle,State.start,runTask,onFdEvent,onConnected,onRecv,onFdReadable,pauseRead,afterReading,
      flushForwardLocked,flushLoop,afterFlush,acknowledge,mod,applyMod,fetchAdd,highWater,full,
      ReactorEvent.WRITE,ReactorEvent.READ]
  obtain ⟨s,ok,same⟩ := Option.map_eq_some_iff.mp outcome
  simp only [Prod.mk.injEq] at same
  obtain ⟨connected,still,open_,want,left,watcher⟩ := same
  refine ⟨s,executeRun (fun _ _ _ h => h) ok,left,watcher,fun retried => ?_⟩
  obtain ⟨iw,found,writable⟩ := retried connected still open_ want
  rw [watcher] at found
  cases Option.some.inj found
  contradiction

end Candy.SessionTcp
