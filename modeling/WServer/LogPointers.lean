import Mathlib.Algebra.BigOperators.Group.Multiset.Basic
import Mathlib.Data.Fin.Embedding
import Mathlib.Tactic.Abel
import WServer.LogBytes

/-!
# The pointers of the logger

The buffers of `AsyncLog` are held by `unique_ptr`s, which are swapped, moved into vectors and taken from
their ends.  Here the same steps work on addresses, with the buffers behind them in a heap, so that it can
be said which pointers are equal.  An address is held at most once, and therefore the machine does what
the machine over buffers does (`Follows`), whose invariants carry over.

* `PointerLog`, `pointerStep` — the logger over addresses;
* `held` — the addresses it holds, with their multiplicities;
* `threadFunc_follows`, `append_follows` — the simulation;
* `recycling_well_defined` — whole runs.
-/

namespace WServer

open Library.Runs

/-- `BufferPtr` -/
abbrev BufferPtr : Type := Option ℕ

/-- The logger and the locals of its thread, with the buffers at their addresses. -/
structure PointerLog where
  running : Bool
  flush : Bool
  flushCallers : ℕ
  flushWaiters : ℕ
  curBuffer : BufferPtr
  nextBuffer : BufferPtr
  buffers : List BufferPtr
  pc : ThreadPc
  newBuffer1 : BufferPtr
  newBuffer2 : BufferPtr
  writeToFile : List BufferPtr
  output : List UInt8
  heap : ℕ → LargeBuffer

/-- The events of the logger; `new` is the address of the buffer that `append` makes if it does. -/
inductive PointerEvent where
  | append (msg : List UInt8) (hlen : msg.length ≤ kSmallBufferSize) (new : ℕ)
  | stop
  | flush
  | flushWait
  | threadFunc (timeStamp : List UInt8)

def PointerEvent.toLogEvent : PointerEvent → LogEvent
  | .append msg hlen _ => .append msg hlen
  | .stop => .stop
  | .flush => .flush
  | .flushWait => .flushWait
  | .threadFunc timeStamp => .threadFunc timeStamp

namespace PointerLog

/-- The logger after `start()`, with the addresses of the four buffers made so far. -/
def start (address : Fin 4 ↪ ℕ) : PointerLog where
  running := true
  flush := false
  flushCallers := 0
  flushWaiters := 0
  curBuffer := some (address 0)
  nextBuffer := some (address 1)
  buffers := []
  pc := .loopTest
  newBuffer1 := some (address 2)
  newBuffer2 := some (address 3)
  writeToFile := []
  output := []
  heap _ := FixedBuffer.make

/-! ### The steps -/

/-- `m_cur_buffer->append(msg, len)` -/
def writeCurBuffer (s : PointerLog) (msg : List UInt8) : Except LogFault PointerLog :=
  match s.curBuffer with
  | some cur => .ok { s with heap := Function.update s.heap cur ((s.heap cur).append msg) }
  | none => .error .appendNull

/-- `m_buffers.push_back(std::move(m_cur_buffer))` -/
def pushCurBuffer (s : PointerLog) : PointerLog :=
  { s with buffers := s.buffers ++ [s.curBuffer], curBuffer := none }

def append (s : PointerLog) (msg : List UInt8) (new : ℕ) : Except LogFault PointerLog :=
  match s.curBuffer with
  | none => .error .appendNull
  | some cur =>
      if msg.length ≤ (s.heap cur).available then s.writeCurBuffer msg
      else
        let s := s.pushCurBuffer
        let s : PointerLog :=
          match s.nextBuffer with
          | none => { s with
              nextBuffer := some new
              heap := Function.update s.heap new FixedBuffer.make }
          | some next => { s with curBuffer := some next, nextBuffer := s.curBuffer }
        s.writeCurBuffer msg

/-- The critical section, behind the wait. -/
def takeBuffers (s : PointerLog) : PointerLog :=
  let s := s.pushCurBuffer
  let s : PointerLog := { s with curBuffer := s.newBuffer1, newBuffer1 := s.curBuffer }
  let s : PointerLog := { s with writeToFile := s.buffers, buffers := s.writeToFile }
  match s.nextBuffer with
  | none => { s with nextBuffer := s.newBuffer2, newBuffer2 := none, pc := .writeOut }
  | some _ => { s with pc := .writeOut }

/-- Too many buffers: all but two are dropped. -/
def dropBuffers (s : PointerLog) (timeStamp : List UInt8) : PointerLog :=
  if 20 < s.writeToFile.length then
    { s with
      output := s.output ++ AsyncLog.dropNotice timeStamp (s.writeToFile.length - 2)
      writeToFile := s.writeToFile.take 2 }
  else s

/-- The buffers behind a list of pointers. -/
def loadAll (heap : ℕ → LargeBuffer) (ps : List BufferPtr) : List (Option LargeBuffer) :=
  ps.map (Option.map heap)

/-- The loop over `write_to_file`. -/
def writeBuffers (s : PointerLog) : Except LogFault PointerLog :=
  match AsyncLog.bytesOf (loadAll s.heap s.writeToFile) with
  | .ok bytes => .ok { s with output := s.output ++ bytes, pc := .recycle }
  | .error f => .error f

/-- A missing spare is the last buffer of `write_to_file`, emptied. -/
def takeSpare (heap : ℕ → LargeBuffer) (spare : BufferPtr) (writeToFile : List BufferPtr) :
    Except LogFault ((ℕ → LargeBuffer) × BufferPtr × List BufferPtr) :=
  match spare with
  | some a => .ok (heap, some a, writeToFile)
  | none =>
      match writeToFile.getLast? with
      | none => .error .backOfEmpty
      | some none => .error .resetNull
      | some (some a) => .ok (Function.update heap a (heap a).reset, some a, writeToFile.dropLast)

/-- From the resize of `write_to_file` to its clearing. -/
def recycle (s : PointerLog) : Except LogFault PointerLog :=
  let writeToFile := if 2 < s.writeToFile.length then s.writeToFile.take 2 else s.writeToFile
  match takeSpare s.heap s.newBuffer1 writeToFile with
  | .error f => .error f
  | .ok (heap, newBuffer1, writeToFile) =>
      match takeSpare heap s.newBuffer2 writeToFile with
      | .error f => .error f
      | .ok (heap, newBuffer2, _) =>
          .ok { s with
            newBuffer1 := newBuffer1
            newBuffer2 := newBuffer2
            writeToFile := []
            pc := .flushTest
            heap := heap }

/-- One step of `threadFunc`. -/
def threadFunc (s : PointerLog) (timeStamp : List UInt8) : Except LogFault PointerLog :=
  match s.pc with
  | .loopTest => .ok { s with pc := if s.running then .lock else .epilogue }
  | .lock => if s.buffers = [] then .ok { s with pc := .waiting } else .ok s.takeBuffers
  | .waiting => .ok s.takeBuffers
  | .writeOut => (s.dropBuffers timeStamp).writeBuffers
  | .recycle => s.recycle
  | .flushTest => .ok { s with running := if s.flush then false else s.running, pc := .loopTest }
  | .epilogue =>
      .ok { s with
        flushWaiters := if s.flush then s.flushWaiters - 1 else s.flushWaiters
        pc := .returned }
  | .returned => .error .notThere

/-! ### What is held -/

/-- The address that a pointer holds, if any. -/
def own (p : BufferPtr) : Multiset ℕ := p.toList

def ownAll (ps : List BufferPtr) : Multiset ℕ := (ps.map own).sum

/-- All addresses that are held. -/
def held (s : PointerLog) : Multiset ℕ :=
  own s.curBuffer + own s.nextBuffer + own s.newBuffer1 + own s.newBuffer2 + ownAll s.buffers
    + ownAll s.writeToFile

end PointerLog

open PointerLog in
/-- One step of the front end or of the log thread. -/
def pointerStep (s : PointerLog) : PointerEvent → Except LogFault PointerLog
  | .append msg _ new => if new ∈ s.held then .error .notThere else s.append msg new
  | .stop => .ok { s with running := false }
  | .flush => .ok { s with flush := true, flushCallers := s.flushCallers + 1 }
  | .flushWait =>
      if 0 < s.flushCallers then
        .ok { s with flushCallers := s.flushCallers - 1, flushWaiters := s.flushWaiters + 1 }
      else .error .notThere
  | .threadFunc timeStamp => s.threadFunc timeStamp

namespace PointerLog

variable {s s' : PointerLog} {heap heap' : ℕ → LargeBuffer} {ps : List BufferPtr} {a : ℕ}

@[simp] theorem own_none : own none = 0 := rfl

@[simp] theorem own_some (a : ℕ) : own (some a) = {a} := rfl

@[simp] theorem ownAll_nil : ownAll [] = 0 := rfl

@[simp] theorem ownAll_append (ps : List BufferPtr) (p : BufferPtr) :
    ownAll (ps ++ [p]) = ownAll ps + own p := by
  rw [ownAll, List.map_append, List.sum_append, List.map_singleton, List.sum_singleton, ownAll]

theorem ownAll_take (n : ℕ) (ps : List BufferPtr) : ownAll (ps.take n) ≤ ownAll ps := by
  have hsplit : ownAll ps = ownAll (ps.take n) + ownAll (ps.drop n) := by
    rw [ownAll, ownAll, ownAll, ← List.sum_append, ← List.map_append, List.take_append_drop]
  rw [hsplit]
  exact Multiset.le_add_right _ _

theorem mem_own {p : BufferPtr} : a ∈ own p ↔ p = some a := by
  cases p with
  | none => simp
  | some b => simp [eq_comm]

theorem mem_ownAll : a ∈ ownAll ps ↔ some a ∈ ps := by
  induction ps with
  | nil => simp
  | cons p ps ih => rw [ownAll, List.map_cons, List.sum_cons, Multiset.mem_add, mem_own, ← ownAll, ih,
      List.mem_cons, eq_comm]

/-- Heaps that agree where a pointer points load the same. -/
theorem load_congr {p : BufferPtr} (h : ∀ a ∈ own p, heap' a = heap a) : p.map heap' = p.map heap := by
  cases p with
  | none => rfl
  | some a => exact congrArg some (h a (mem_own.mpr rfl))

theorem loadAll_congr (h : ∀ a ∈ ownAll ps, heap' a = heap a) : loadAll heap' ps = loadAll heap ps :=
  List.map_congr_left fun p hp => load_congr fun a ha => by
    rw [mem_own] at ha
    exact h a (mem_ownAll.mpr (ha ▸ hp))

/-! ### The logger over buffers -/

/-- The logger with the buffers in the place of their addresses. -/
def values (s : PointerLog) : AsyncLog where
  running := s.running
  flush := s.flush
  flushCallers := s.flushCallers
  flushWaiters := s.flushWaiters
  curBuffer := s.curBuffer.map s.heap
  nextBuffer := s.nextBuffer.map s.heap
  buffers := loadAll s.heap s.buffers
  pc := s.pc
  newBuffer1 := s.newBuffer1.map s.heap
  newBuffer2 := s.newBuffer2.map s.heap
  writeToFile := loadAll s.heap s.writeToFile
  output := s.output

/-- A step over addresses does what the step over buffers does, and holds no address that was not held. -/
def Follows (s : PointerLog) : Except LogFault PointerLog → Except LogFault AsyncLog → Prop
  | .ok s', r => r = .ok s'.values ∧ s'.held ≤ s.held
  | .error f, r => r = .error f

/-! ### The front end -/

section

variable {cur next : ℕ} {msg : List UInt8} (new : ℕ)

theorem append_fits (hcur : s.curBuffer = some cur) (hfits : msg.length ≤ (s.heap cur).available) :
    s.append msg new = .ok { s with heap := Function.update s.heap cur ((s.heap cur).append msg) } := by
  simp only [append, hcur, if_pos hfits, writeCurBuffer]

/-- The logger with the spare buffer in the place of the full one. -/
def switched (s : PointerLog) : PointerLog :=
  { s with curBuffer := s.nextBuffer, nextBuffer := none, buffers := s.buffers ++ [s.curBuffer] }

theorem append_switches (hcur : s.curBuffer = some cur) (hfull : ¬ msg.length ≤ (s.heap cur).available)
    (hnext : s.nextBuffer = some next) :
    s.append msg new = .ok { s.switched with
      heap := Function.update s.heap next ((s.heap next).append msg) } := by
  simp only [append, hcur, if_neg hfull, pushCurBuffer, hnext, writeCurBuffer, switched]

theorem append_faults (hcur : s.curBuffer = some cur) (hfull : ¬ msg.length ≤ (s.heap cur).available)
    (hnext : s.nextBuffer = none) : s.append msg new = .error .appendNull := by
  simp only [append, hcur, if_neg hfull, pushCurBuffer, hnext, writeCurBuffer]

end

/-- A buffer written through the current pointer is seen through no other one. -/
theorem values_write (h : s.held.Nodup) {cur : ℕ} (hcur : s.curBuffer = some cur) (b : LargeBuffer) :
    ({ s with heap := Function.update s.heap cur b } : PointerLog).values
      = { s.values with curBuffer := some b } := by
  rw [held, hcur, own_some, add_assoc, add_assoc, add_assoc, add_assoc, Multiset.singleton_add,
    Multiset.nodup_cons] at h
  have hsame : ∀ a ∈ own s.nextBuffer + (own s.newBuffer1 + (own s.newBuffer2 + (ownAll s.buffers
      + ownAll s.writeToFile))), Function.update s.heap cur b a = s.heap a := fun a ha =>
    Function.update_of_ne (fun heq => h.1 (by rwa [heq] at ha)) _ _
  simp only [Multiset.mem_add] at hsame
  have hnext := load_congr fun a ha => hsame a (Or.inl ha)
  have hnew1 := load_congr fun a ha => hsame a (Or.inr (Or.inl ha))
  have hnew2 := load_congr fun a ha => hsame a (Or.inr (Or.inr (Or.inl ha)))
  have hbuffers := loadAll_congr fun a ha => hsame a (Or.inr (Or.inr (Or.inr (Or.inl ha))))
  have hwrite := loadAll_congr fun a ha => hsame a (Or.inr (Or.inr (Or.inr (Or.inr ha))))
  simp only [values, hcur, Option.map_some, Function.update_self, hnext, hnew1, hnew2, hbuffers, hwrite]

theorem switched_held : s.switched.held = s.held := by
  simp only [held, switched, own_none, ownAll_append]
  abel

theorem append_follows (h : s.held.Nodup) (msg : List UInt8) (new : ℕ) :
    s.Follows (s.append msg new) (s.values.append msg) := by
  cases hcur : s.curBuffer with
  | none =>
      have hnone : s.values.curBuffer = none := by rw [values, hcur]; rfl
      rw [append, hcur, AsyncLog.append, hnone]
      rfl
  | some cur =>
      have hsome : s.values.curBuffer = some (s.heap cur) := by rw [values, hcur]; rfl
      by_cases hfits : msg.length ≤ (s.heap cur).available
      · rw [append_fits new hcur hfits, AsyncLog.append_fits hsome hfits, Follows, values_write h hcur]
        exact ⟨rfl, le_refl _⟩
      · cases hnext : s.nextBuffer with
        | none =>
            have hnone : s.values.nextBuffer = none := by rw [values, hnext]; rfl
            rw [append_faults new hcur hfits hnext, AsyncLog.append_faults hsome hfits hnone]
            rfl
        | some next =>
            have hthere : s.values.nextBuffer = some (s.heap next) := by rw [values, hnext]; rfl
            have hheld : s.switched.held.Nodup := by rwa [switched_held]
            rw [append_switches new hcur hfits hnext, AsyncLog.append_switches hsome hfits hthere, Follows]
            refine ⟨?_, le_of_eq switched_held⟩
            rw [show s.heap = s.switched.heap from rfl, values_write hheld hnext]
            simp only [values, switched, loadAll, List.map_append, List.map_singleton, hcur, Option.map_some,
              Option.map_none]

/-! ### The log thread -/

theorem takeBuffers_held : s.takeBuffers.held = s.held := by
  cases hnext : s.nextBuffer with
  | none =>
      simp only [takeBuffers, pushCurBuffer, held, hnext, own_none, ownAll_append]
      abel
  | some next =>
      simp only [takeBuffers, pushCurBuffer, held, hnext, own_none, ownAll_append]
      abel

theorem takeBuffers_values : s.takeBuffers.values = s.values.takeBuffers := by
  cases hnext : s.nextBuffer with
  | none =>
      simp only [takeBuffers, pushCurBuffer, AsyncLog.takeBuffers, AsyncLog.pushCurBuffer, values, hnext,
        loadAll, List.map_append, List.map_singleton, Option.map_none]
  | some next =>
      simp only [takeBuffers, pushCurBuffer, AsyncLog.takeBuffers, AsyncLog.pushCurBuffer, values, hnext,
        loadAll, List.map_append, List.map_singleton, Option.map_none, Option.map_some]

theorem dropBuffers_values (timeStamp : List UInt8) :
    (s.dropBuffers timeStamp).values = s.values.dropBuffers timeStamp := by
  rw [dropBuffers, AsyncLog.dropBuffers, show s.values.writeToFile.length = s.writeToFile.length from
    List.length_map _]
  split
  · simp only [values, loadAll, List.map_take]
  · rfl

theorem dropBuffers_held (timeStamp : List UInt8) : (s.dropBuffers timeStamp).held ≤ s.held := by
  rw [dropBuffers]
  split
  · exact Multiset.add_le_add_left (ownAll_take 2 _)
  · exact le_refl _

theorem writeBuffers_follows : s.Follows s.writeBuffers s.values.writeBuffers := by
  rw [writeBuffers, AsyncLog.writeBuffers]
  show s.Follows _ (match AsyncLog.bytesOf (loadAll s.heap s.writeToFile) with | .ok _ => _ | .error _ => _)
  cases AsyncLog.bytesOf (loadAll s.heap s.writeToFile) with
  | ok bytes => exact ⟨rfl, le_refl _⟩
  | error f => rfl

section

variable {spare spare' : BufferPtr} {ps' : List BufferPtr}

theorem takeSpare_error {f : LogFault} (h : takeSpare heap spare ps = .error f) :
    AsyncLog.takeSpare (spare.map heap) (loadAll heap ps) = .error f := by
  cases spare with
  | some a => cases h
  | none =>
      rw [takeSpare] at h
      rw [Option.map_none, AsyncLog.takeSpare, loadAll, List.getLast?_map]
      cases hlast : ps.getLast? with
      | none =>
          rw [hlast] at h
          cases h
          rfl
      | some p =>
          cases p with
          | none =>
              rw [hlast] at h
              cases h
              rfl
          | some a =>
              rw [hlast] at h
              cases h

/-- A spare that is taken back comes from the pointers that are given, and nothing is written behind the
others. -/
theorem takeSpare_ok {others : Multiset ℕ} (hheld : (others + (own spare + ownAll ps)).Nodup)
    (h : takeSpare heap spare ps = .ok (heap', spare', ps')) :
    AsyncLog.takeSpare (spare.map heap) (loadAll heap ps) = .ok (spare'.map heap', loadAll heap' ps') ∧
      own spare' + ownAll ps' = own spare + ownAll ps ∧ ∀ a ∈ others, heap' a = heap a := by
  cases spare with
  | some a =>
      cases h
      exact ⟨rfl, rfl, fun _ _ => rfl⟩
  | none =>
      rw [takeSpare] at h
      split at h
      · cases h
      · cases h
      · rename_i a hlast
        cases h
        obtain ⟨qs, rfl⟩ : ∃ qs, ps = qs ++ [some a] :=
          ⟨ps.dropLast, (List.dropLast_append_getLast? _ hlast).symm⟩
        rw [ownAll_append, own_none, own_some, zero_add, ← add_assoc, add_comm, Multiset.singleton_add,
          Multiset.nodup_cons, Multiset.mem_add, not_or] at hheld
        have hsame : ∀ b, b ≠ a → Function.update heap a (heap a).reset b = heap b := fun b hb =>
          Function.update_of_ne hb _ _
        have hqs : ∀ b ∈ ownAll qs, Function.update heap a (heap a).reset b = heap b := fun b hb =>
          hsame b fun heq => hheld.1.2 (by rwa [heq] at hb)
        refine ⟨?_, ?_, fun b hb => hsame b fun heq => hheld.1.1 (by rwa [heq] at hb)⟩
        · rw [List.dropLast_concat, loadAll_congr hqs, Option.map_none, AsyncLog.takeSpare, loadAll,
            List.map_append, List.map_singleton, List.getLast?_concat, List.dropLast_concat]
          simp only [Option.map_some, Function.update_self, loadAll]
        · rw [List.dropLast_concat, ownAll_append]
          abel

end

/-- `write_to_file` after the resize. -/
def resized (s : PointerLog) : List BufferPtr :=
  if 2 < s.writeToFile.length then s.writeToFile.take 2 else s.writeToFile

theorem resized_own : ownAll s.resized ≤ ownAll s.writeToFile := by
  rw [resized]
  split
  · exact ownAll_take 2 _
  · exact le_refl _

theorem resized_values : (if 2 < s.values.writeToFile.length then s.values.writeToFile.take 2
    else s.values.writeToFile) = loadAll s.heap s.resized := by
  rw [resized, show s.values.writeToFile.length = s.writeToFile.length from List.length_map _]
  split
  · exact List.map_take.symm
  · rfl

theorem recycle_follows (h : s.held.Nodup) : s.Follows s.recycle s.values.recycle := by
  set kept := own s.curBuffer + own s.nextBuffer + ownAll s.buffers with hkept
  have hsplit : kept + own s.newBuffer2 + (own s.newBuffer1 + ownAll s.resized) ≤ s.held := by
    calc kept + own s.newBuffer2 + (own s.newBuffer1 + ownAll s.resized)
        ≤ kept + own s.newBuffer2 + (own s.newBuffer1 + ownAll s.writeToFile) :=
          Multiset.add_le_add_left (Multiset.add_le_add_left resized_own)
      _ = s.held := by
          rw [hkept, held]
          abel
  have hunique := Multiset.nodup_of_le hsplit h
  rw [recycle, AsyncLog.recycle, resized_values, ← resized]
  cases hfirst : takeSpare s.heap s.newBuffer1 s.resized with
  | error f =>
      simp only [show s.values.newBuffer1 = s.newBuffer1.map s.heap from rfl, takeSpare_error hfirst]
      rfl
  | ok r =>
      obtain ⟨heap1, c1, ws1⟩ := r
      obtain ⟨hvalues1, hown1, hheap1⟩ := takeSpare_ok hunique hfirst
      have hnew2 : s.newBuffer2.map heap1 = s.newBuffer2.map s.heap :=
        load_congr fun a ha => hheap1 a (Multiset.mem_add.mpr (Or.inr ha))
      have hmoved : kept + own c1 + (own s.newBuffer2 + ownAll ws1)
          = kept + own s.newBuffer2 + (own s.newBuffer1 + ownAll s.resized) := by
        rw [← hown1]
        abel
      rw [← hmoved] at hunique hsplit
      simp only [show s.values.newBuffer1 = s.newBuffer1.map s.heap from rfl, hvalues1,
        show s.values.newBuffer2 = s.newBuffer2.map s.heap from rfl, ← hnew2]
      cases hsecond : takeSpare heap1 s.newBuffer2 ws1 with
      | error f =>
          simp only [takeSpare_error hsecond]
          rfl
      | ok r =>
          obtain ⟨heap2, c2, ws2⟩ := r
          obtain ⟨hvalues2, hown2, hheap2⟩ := takeSpare_ok hunique hsecond
          have hsame : ∀ a ∈ kept, heap2 a = s.heap a := fun a ha => by
            rw [hheap2 a (Multiset.mem_add.mpr (Or.inl ha)), hheap1 a (Multiset.mem_add.mpr (Or.inl ha))]
          have hcur : s.curBuffer.map heap2 = s.curBuffer.map s.heap :=
            load_congr fun a ha => hsame a (by simp [hkept, ha])
          have hnext : s.nextBuffer.map heap2 = s.nextBuffer.map s.heap :=
            load_congr fun a ha => hsame a (by simp [hkept, ha])
          have hbuffers : loadAll heap2 s.buffers = loadAll s.heap s.buffers :=
            loadAll_congr fun a ha => hsame a (by simp [hkept, ha])
          have hspare1 : c1.map heap2 = c1.map heap1 :=
            load_congr fun a ha => hheap2 a (Multiset.mem_add.mpr (Or.inr ha))
          simp only [hvalues2]
          refine ⟨?_, ?_⟩
          · simp only [values, hcur, hnext, hbuffers, hspare1]
            rfl
          · rw [← hown2] at hsplit
            refine le_trans ?_ hsplit
            calc own s.curBuffer + own s.nextBuffer + own c1 + own c2 + ownAll s.buffers + 0
                ≤ own s.curBuffer + own s.nextBuffer + own c1 + own c2 + ownAll s.buffers
                  + ownAll ws2 := Multiset.add_le_add_left (Multiset.zero_le _)
              _ = kept + own c1 + (own c2 + ownAll ws2) := by rw [hkept]; abel

theorem Follows.trans_held {t : PointerLog} {r : Except LogFault PointerLog} {v : Except LogFault AsyncLog}
    (h : t.Follows r v) (hle : t.held ≤ s.held) : s.Follows r v := by
  cases r with
  | ok s' => exact ⟨h.1, h.2.trans hle⟩
  | error f => exact h

/-- **The log thread** does over addresses what it does over buffers. -/
theorem threadFunc_follows (h : s.held.Nodup) (timeStamp : List UInt8) :
    s.Follows (s.threadFunc timeStamp) (s.values.threadFunc timeStamp) := by
  rw [threadFunc, AsyncLog.threadFunc, show s.values.pc = s.pc from rfl]
  cases hpc : s.pc with
  | loopTest | flushTest | epilogue => exact ⟨rfl, le_refl _⟩
  | lock =>
      simp only [show s.values.buffers = [] ↔ s.buffers = [] from List.map_eq_nil_iff]
      split
      · exact ⟨rfl, le_refl _⟩
      · exact ⟨by rw [takeBuffers_values], le_of_eq takeBuffers_held⟩
  | waiting => exact ⟨by rw [takeBuffers_values], le_of_eq takeBuffers_held⟩
  | writeOut =>
      simp only [← dropBuffers_values]
      exact writeBuffers_follows.trans_held (dropBuffers_held timeStamp)
  | recycle => exact recycle_follows h
  | returned => rfl

/-! ### Whole runs -/

/-- No address is held twice, and the logger over buffers is in order. -/
structure Recycling (s : PointerLog) : Prop where
  unique : s.held.Nodup
  clean : s.values.Clean

/-- Both spares are there, they are two, and they are empty. -/
def SparesReady (s : PointerLog) : Prop :=
  ∃ a b, s.newBuffer1 = some a ∧ s.newBuffer2 = some b ∧ a ≠ b ∧
    (s.heap a).length = 0 ∧ (s.heap b).length = 0

theorem recycling_start (address : Fin 4 ↪ ℕ) : Recycling (start address) := by
  have hheld : (start address).held = ((List.finRange 4).map address : List ℕ) := rfl
  refine ⟨?_, AsyncLog.clean_start⟩
  rw [hheld, Multiset.coe_nodup]
  exact (List.nodup_finRange 4).map address.injective

/-- **One step** over addresses is one over buffers, and keeps the pointers apart. -/
theorem recycling_step {e : PointerEvent} (h : Recycling s) (hstep : pointerStep s e = .ok s') :
    Recycling s' := by
  have hfollows : s.Follows (.ok s') (logStep s.values e.toLogEvent) → Recycling s' := fun hf =>
    ⟨Multiset.nodup_of_le hf.2 h.unique, AsyncLog.clean_step _ _ _ h.clean hf.1⟩
  cases e with
  | append msg hlen new =>
      rw [pointerStep] at hstep
      split at hstep
      · cases hstep
      · have happend := append_follows h.unique msg new
        rw [hstep] at happend
        exact hfollows happend
  | stop | flush =>
      cases hstep
      exact hfollows ⟨rfl, le_refl _⟩
  | flushWait =>
      rw [pointerStep] at hstep
      split at hstep
      · cases hstep
        exact hfollows ⟨if_pos ‹_›, le_refl _⟩
      · cases hstep
  | threadFunc timeStamp =>
      have hthread := threadFunc_follows h.unique timeStamp
      rw [show s.threadFunc timeStamp = .ok s' from hstep] at hthread
      exact hfollows hthread

/-- The log thread misses no buffer. -/
theorem Recycling.threadFunc_error (h : Recycling s) {timeStamp : List UInt8} {f : LogFault}
    (hstep : s.threadFunc timeStamp = .error f) : s.pc = .returned ∧ f = .notThere := by
  have hthread := threadFunc_follows h.unique timeStamp
  rw [hstep] at hthread
  by_cases hpc : s.pc = .returned
  · rw [threadFunc, hpc] at hstep
    cases hstep
    exact ⟨hpc, rfl⟩
  · obtain ⟨t, ht, -⟩ := h.clean.toIntact.threadFunc timeStamp hpc
    rw [show s.values.threadFunc timeStamp = .error f from hthread] at ht
    cases ht

/-- Between two iterations both spares are ready. -/
theorem Recycling.sparesReady (h : Recycling s) (hpc : s.pc = .loopTest) : s.SparesReady := by
  have hidle : ¬ s.values.Busy := by
    rintro (hat | hat) <;> rw [show s.values.pc = s.pc from rfl, hpc] at hat <;> cases hat
  have hrest := h.clean.resting hidle
  have hnew1 : s.newBuffer1 ≠ none := fun hnone => hrest.newBuffer1 (congrArg (Option.map s.heap) hnone)
  have hnew2 : s.newBuffer2 ≠ none := fun hnone => hrest.newBuffer2 (congrArg (Option.map s.heap) hnone)
  obtain ⟨a, ha⟩ := Option.ne_none_iff_exists'.mp hnew1
  obtain ⟨b, hb⟩ := Option.ne_none_iff_exists'.mp hnew2
  have hempty1 : AsyncLog.contentOf (s.newBuffer1.map s.heap) = [] := h.clean.newBuffer1Empty
  have hempty2 : AsyncLog.contentOf (s.newBuffer2.map s.heap) = [] := h.clean.newBuffer2Empty
  rw [ha] at hempty1
  rw [hb] at hempty2
  refine ⟨a, b, ha, hb, ?_, congrArg List.length hempty1, congrArg List.length hempty2⟩
  have hunique := h.unique
  rw [held, ha, hb, Multiset.nodup_add, Multiset.nodup_add, Multiset.nodup_add] at hunique
  obtain ⟨⟨⟨-, -, hdisjoint⟩, -⟩, -⟩ := hunique
  exact fun heq => Multiset.disjoint_left.mp hdisjoint
    (Multiset.mem_add.mpr (Or.inr (mem_own.mpr rfl))) (mem_own.mpr (congrArg some heq.symm))

/-- **Buffer recycling is well defined.**  In every state that `append`s and steps of the log thread have
reached, the front end lacks its spare only while a full buffer waits; no step of the log thread uses a
missing pointer or takes the last of no buffers; and at the start of an iteration both spares are there,
different and empty. -/
theorem recycling_well_defined (address : Fin 4 ↪ ℕ) (events : List PointerEvent) :
    ∀ s, ReachedBy pointerStep (start address) events s →
      (s.nextBuffer = none → s.buffers ≠ []) ∧
      (∀ timeStamp f, s.threadFunc timeStamp = .error f → s.pc = .returned ∧ f = .notThere) ∧
      (s.pc = .loopTest → s.SparesReady) := by
  intro s hs
  have h : Recycling s := run_invariant (fun _ _ _ hs _ => recycling_step hs) events
    (recycling_start address) (along_true _ _) s hs
  refine ⟨fun hnext hbuffers => ?_, fun _ _ => h.threadFunc_error, h.sparesReady⟩
  exact h.clean.next (congrArg (Option.map s.heap) hnext) (congrArg (loadAll s.heap) hbuffers)

/-- An iteration that takes a message and gives a spare away. -/
def oneIteration : List PointerEvent :=
  [.append [120] oneByte_fits 9, .threadFunc [], .threadFunc [], .threadFunc [], .threadFunc [],
    .threadFunc [], .threadFunc []]

theorem recycling_well_defined_oneIteration : ∃ s,
    runFrom pointerStep (start Fin.valEmbedding) oneIteration = .ok s ∧ s.SparesReady := by
  refine ⟨_, rfl, (recycling_well_defined Fin.valEmbedding oneIteration _ (reachedBy_end rfl)).2.2 rfl⟩

end PointerLog

end WServer
