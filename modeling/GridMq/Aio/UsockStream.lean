import GridMq.Aio.Usock
import Mathlib.Data.List.Nodup

set_option autoImplicit false

/-!
# A usock that does not fail

While its connection holds, a usock moves the bytes it is given, in order: what a receive
takes and what it leaves make up what was there, and so do what a send has written and
what it keeps.
-/

namespace GridMq.Aio.Usock

variable {u : Usock}

/-! ## Open requests -/

/-- No receive is open. -/
structure NotReceiving (u : Usock) : Prop where
  task : UsockTask.recv ∉ u.tasks
  pollIn : u.pollIn = false
  inLen : u.inLen = 0

/-- A receive lacks some bytes; the worker was told or polls for them. -/
structure Receiving (u : Usock) : Prop where
  inLen : 0 < u.inLen
  batch : u.batch = []
  worker : UsockTask.recv ∈ u.tasks ∧ u.pollIn = false ∨
    UsockTask.recv ∉ u.tasks ∧ u.pollIn = true

/-- No send is open. -/
structure NotSending (u : Usock) : Prop where
  task : UsockTask.send ∉ u.tasks
  pollOut : u.pollOut = false
  out : u.out = []

/-- Some bytes could not be sent; the worker was told or polls for room. -/
structure Sending (u : Usock) : Prop where
  out : u.out ≠ []
  pieces : ∀ iov ∈ u.out, iov ≠ []
  worker : UsockTask.send ∈ u.tasks ∧ u.pollOut = false ∨
    UsockTask.send ∉ u.tasks ∧ u.pollOut = true

/-- Connected, and the worker has to do with sending and receiving only. -/
structure Steady (u : Usock) : Prop where
  state : u.state = .active
  fd : u.fd = true
  nodup : u.tasks.Nodup
  tasks : ∀ task ∈ u.tasks, task = .send ∨ task = .recv

/-- The sending half of a usock stays as it is. -/
structure SameOut (u u' : Usock) : Prop where
  out : u'.out = u.out
  notSending : u.NotSending → u'.NotSending
  sending : u.Sending → u'.Sending

/-- The receiving half of a usock stays as it is. -/
structure SameIn (u u' : Usock) : Prop where
  batch : u'.batch = u.batch
  inBuf : u'.inBuf = u.inBuf
  inLen : u'.inLen = u.inLen
  notReceiving : u.NotReceiving → u'.NotReceiving
  receiving : u.Receiving → u'.Receiving

theorem sameOut_intro {u u' : Usock} (hout : u'.out = u.out) (hpoll : u'.pollOut = u.pollOut)
    (htask : UsockTask.send ∈ u'.tasks ↔ UsockTask.send ∈ u.tasks) : SameOut u u' where
  out := hout
  notSending h := ⟨fun ht => h.task (htask.mp ht), hpoll.trans h.pollOut, hout.trans h.out⟩
  sending h := ⟨by rw [hout]; exact h.out, by rw [hout]; exact h.pieces,
    by rw [htask, hpoll]; exact h.worker⟩

theorem sameIn_intro {u u' : Usock} (hbatch : u'.batch = u.batch) (hbuf : u'.inBuf = u.inBuf)
    (hlen : u'.inLen = u.inLen) (hpoll : u'.pollIn = u.pollIn)
    (htask : UsockTask.recv ∈ u'.tasks ↔ UsockTask.recv ∈ u.tasks) : SameIn u u' where
  batch := hbatch
  inBuf := hbuf
  inLen := hlen
  notReceiving h := ⟨fun ht => h.task (htask.mp ht), hpoll.trans h.pollIn, hlen.trans h.inLen⟩
  receiving h := ⟨by rw [hlen]; exact h.inLen, hbatch.trans h.batch,
    by rw [htask, hpoll]; exact h.worker⟩

theorem steady_connected (batch : List UInt8) :
    Steady { Usock.connected with batch := batch } where
  state := rfl
  fd := rfl
  nodup := List.nodup_nil
  tasks := by simp [Usock.connected]

theorem nodup_append_task {tasks : List UsockTask} {task : UsockTask} (h : tasks.Nodup)
    (hnew : task ∉ tasks) : (tasks ++ [task]).Nodup := by
  rw [List.nodup_append]
  refine ⟨h, List.nodup_singleton task, ?_⟩
  intro a ha b hb hab
  obtain rfl := List.mem_singleton.mp hb
  exact hnew (hab ▸ ha)

/-! ## Receiving -/

/-- One read: bytes come from the batch buffer and then from the wire, in order. -/
theorem recvRaw_spec (wire : List UInt8) {length : Nat} (hlen : 0 < length) (n : Nat) :
    ∃ batch wire' got, u.recvRaw wire length (.bytes n) = ({ u with batch := batch }, wire',
        some got) ∧
      got ++ (batch ++ wire') = u.batch ++ wire ∧ got.length ≤ length ∧
      (got.length < length → batch = []) ∧
      (0 < n → u.batch ++ wire ≠ [] → got ≠ []) := by
  by_cases hfull : length ≤ u.batch.length
  · -- the batch buffer has all of it
    have htake : (u.batch.take length).length = length := by
      rw [List.length_take]
      omega
    have hne : u.batch.take length ≠ [] := by
      intro hnil
      rw [hnil, List.length_nil] at htake
      omega
    refine ⟨u.batch.drop length, wire, u.batch.take length, ?_, ?_, ?_, ?_, fun _ _ => hne⟩
    · unfold recvRaw
      simp only
      rw [if_pos ⟨fun hnil => hne (by rw [hnil, List.take_nil]), by rw [htake]; omega⟩]
    · rw [← List.append_assoc, List.take_append_drop]
    · omega
    · omega
  · have htake : u.batch.take length = u.batch := List.take_of_length_le (by omega)
    have hdrop : u.batch.drop length = [] := List.drop_of_length_le (by omega)
    have hleft : ¬ (u.batch ≠ [] ∧ length - u.batch.length = 0) := by omega
    unfold recvRaw
    simp only [htake, hdrop, if_neg hleft]
    split
    · -- directly into the place
      refine ⟨[], _, _, rfl, ?_, ?_, fun _ => rfl, ?_⟩
      · rw [List.nil_append, List.append_assoc, List.take_append_drop]
      · rw [List.length_append, List.length_take]
        omega
      · intro hn hne hnil
        obtain ⟨hb, hw⟩ := List.append_eq_nil_iff.mp hnil
        rw [hb, List.nil_append] at hne
        have hmin : min n (length - u.batch.length) ≠ 0 := by omega
        rcases List.take_eq_nil_iff.mp hw with hz | hz
        · exact hmin hz
        · exact hne hz
    · -- through the batch buffer
      refine ⟨_, _, _, rfl, ?_, ?_, ?_, ?_⟩
      · rw [List.append_assoc, ← List.append_assoc (List.take _ _), List.take_append_drop,
          List.take_append_drop]
      · rw [List.length_append, List.length_take]
        omega
      · intro hlt
        rw [List.length_append, List.length_take] at hlt
        exact List.drop_of_length_le (by omega)
      · intro hn hne hnil
        obtain ⟨hb, hw⟩ := List.append_eq_nil_iff.mp hnil
        rw [hb, List.nil_append] at hne
        have hpos : length - u.batch.length ≠ 0 := by omega
        have hmin : min n usockBatchSize ≠ 0 := by
          have : usockBatchSize = 2048 := rfl
          omega
        rcases List.take_eq_nil_iff.mp hw with hz | hz
        · exact hpos hz
        · rcases List.take_eq_nil_iff.mp hz with hz | hz
          · exact hmin hz
          · exact hne hz

/-- What a receive comes to. -/
structure Received (u u' : Usock) (len : Nat) (e : Option UsockEvent) : Prop where
  steady : u'.Steady
  sameOut : SameOut u u'
  length : u'.inBuf.length + u'.inLen = len
  outcome : e = some .received ∧ u'.NotReceiving ∧ u'.tasks = u.tasks ∨
    e = none ∧ u'.Receiving ∧ u'.tasks.length ≤ u.tasks.length + 1

/-- A receive takes the next bytes. -/
theorem recv_spec (hu : u.Steady) (hnot : u.NotReceiving) (wire : List UInt8) {len : Nat}
    (hlen : 0 < len) (n : Nat) :
    ∃ u' wire' e, u.recv wire len (.bytes n) = .ok (u', wire', e) ∧ Received u u' len e ∧
      u'.inBuf ++ (u'.batch ++ wire') = u.batch ++ wire := by
  obtain ⟨batch, wire', got, hraw, hdata, hle, hbatch, -⟩ :=
    recvRaw_spec (u := u) wire hlen n
  unfold recv
  rw [gridAssert_pos hu.state, ok_bind, hraw]
  simp only
  by_cases hall : got.length = len
  · rw [if_pos hall]
    refine ⟨_, _, _, rfl, ⟨⟨hu.state, hu.fd, hu.nodup, hu.tasks⟩,
      sameOut_intro rfl rfl Iff.rfl, ?_, Or.inl ⟨rfl, ⟨hnot.task, hnot.pollIn, hnot.inLen⟩, rfl⟩⟩, hdata⟩
    simp only [hnot.inLen]
    exact hall
  · rw [if_neg hall]
    simp only [execute, gridAssert_pos hnot.task, ok_bind, pure_eq_ok]
    refine ⟨_, _, _, rfl, ⟨⟨hu.state, hu.fd, nodup_append_task hu.nodup hnot.task, ?_⟩,
      sameOut_intro rfl rfl ?_, ?_,
      Or.inr ⟨rfl, ⟨?_, hbatch (by omega), Or.inl ⟨?_, hnot.pollIn⟩⟩, ?_⟩⟩, hdata⟩
    · intro task ht
      rcases List.mem_append.mp ht with ht | ht
      · exact hu.tasks task ht
      · exact Or.inr (List.mem_singleton.mp ht)
    · simp
    · simp only
      omega
    · simp only
      omega
    · simp
    · simp

/-- The worker reads for an open receive. -/
theorem fdIn_spec (hu : u.Steady) (hrec : u.Receiving) (hpoll : u.pollIn = true)
    (wire : List UInt8) (n : Nat) :
    ∃ u' wire' e, u.fdIn wire (.bytes n) = .ok (u', wire', e) ∧
      Received u u' (u.inBuf.length + u.inLen) e ∧
      u'.inBuf ++ (u'.batch ++ wire') = u.inBuf ++ wire ∧ u'.tasks = u.tasks ∧
      (0 < n → wire ≠ [] → u.inBuf.length < u'.inBuf.length) := by
  obtain ⟨batch, wire', got, hraw, hdata, hle, hbatch, hmore⟩ :=
    recvRaw_spec (u := u) wire hrec.inLen n
  rw [hrec.batch, List.nil_append] at hdata hmore
  have htask : UsockTask.recv ∉ u.tasks := by
    rcases hrec.worker with ⟨-, hoff⟩ | ⟨hno, -⟩
    · rw [hpoll] at hoff
      exact absurd hoff (by simp)
    · exact hno
  have hprogress : 0 < n → wire ≠ [] → u.inBuf.length < (u.inBuf ++ got).length := by
    intro hn hw
    rw [List.length_append]
    have := List.length_pos_of_ne_nil (hmore hn hw)
    omega
  unfold fdIn
  rw [hu.state]
  simp only [hraw]
  by_cases hall : u.inLen - got.length = 0
  · rw [if_pos hall]
    refine ⟨_, _, _, rfl, ⟨⟨hu.state, hu.fd, hu.nodup, hu.tasks⟩,
      sameOut_intro rfl rfl Iff.rfl, ?_, Or.inl ⟨rfl, ⟨htask, rfl, hall⟩, rfl⟩⟩, ?_, rfl, hprogress⟩
    · simp only [List.length_append]
      omega
    · rw [List.append_assoc, hdata]
  · rw [if_neg hall]
    refine ⟨_, _, _, rfl, ⟨⟨hu.state, hu.fd, hu.nodup, hu.tasks⟩,
      sameOut_intro rfl rfl Iff.rfl, ?_,
      Or.inr ⟨rfl, ⟨?_, hbatch (by omega), Or.inr ⟨htask, hpoll⟩⟩, Nat.le_succ _⟩⟩, ?_, rfl,
      hprogress⟩
    · simp only [List.length_append]
      omega
    · simp only
      omega
    · rw [List.append_assoc, hdata]

/-! ## Sending -/

/-- The pieces that are left when some bytes were sent. -/
theorem advance_spec {out : List (List UInt8)} {n : Nat} (hpieces : ∀ iov ∈ out, iov ≠ [])
    (hn : n ≤ out.flatten.length) :
    ∃ out', advance out n = .ok out' ∧ out'.flatten = out.flatten.drop n ∧
      ∀ iov ∈ out', iov ≠ [] := by
  induction out generalizing n with
  | nil =>
      have hz : n = 0 := by simpa using hn
      refine ⟨[], ?_, by simp, by simp⟩
      rw [advance, if_pos hz]
  | cons iov rest ih =>
      have hrest : ∀ iov ∈ rest, iov ≠ [] := fun p hp => hpieces p (List.mem_cons_of_mem iov hp)
      rw [List.flatten_cons, List.length_append] at hn
      rw [advance]
      by_cases hz : n = 0
      · rw [if_pos hz]
        exact ⟨_, rfl, by rw [hz, List.drop_zero], hpieces⟩
      · rw [if_neg hz]
        by_cases hle : iov.length ≤ n
        · rw [if_pos hle]
          by_cases hlast : rest = []
          · rw [hlast, List.flatten_nil, List.length_nil] at hn
            rw [if_pos hlast, gridAssert_pos (by omega : n = iov.length), ok_bind]
            refine ⟨[], rfl, ?_, by simp⟩
            rw [hlast, List.flatten_cons, List.flatten_nil, List.append_nil,
              List.drop_of_length_le (by omega)]
          · rw [if_neg hlast]
            obtain ⟨out', hcall, hdata, hne⟩ := ih (n := n - iov.length) hrest (by omega)
            refine ⟨out', hcall, ?_, hne⟩
            rw [hdata, List.flatten_cons, List.drop_append, List.drop_of_length_le hle,
              List.nil_append]
        · rw [if_neg hle]
          refine ⟨_, rfl, ?_, ?_⟩
          · rw [List.flatten_cons, List.flatten_cons, List.drop_append_of_le_length (by omega)]
          · intro p hp
            rcases List.mem_cons.mp hp with rfl | hp
            · intro hnil
              have := List.drop_eq_nil_iff.mp hnil
              omega
            · exact hrest p hp

/-- What a send comes to. -/
structure Sent (u u' : Usock) (e : Option UsockEvent) : Prop where
  steady : u'.Steady
  sameIn : SameIn u u'
  outcome : e = some .sent ∧ u'.NotSending ∧ u'.tasks = u.tasks ∨
    e = none ∧ u'.Sending ∧ u'.tasks.length ≤ u.tasks.length + 1

/-- A send writes a part of its pieces and keeps the rest. -/
theorem send_spec (hu : u.Steady) (hnot : u.NotSending) {iov : List (List UInt8)}
    (hiov : iov.length ≤ usockMaxIovcnt) (n : Nat) :
    ∃ u' w e, u.send iov (.bytes n) = .ok (u', w, e) ∧ Sent u u' e ∧
      w ++ u'.out.flatten = iov.flatten := by
  have hpieces : ∀ p ∈ iov.filter (· ≠ []), p ≠ [] := by
    intro p hp
    simpa using (List.mem_filter.mp hp).2
  have hflat : (iov.filter (· ≠ [])).flatten = iov.flatten := List.flatten_filter_ne_nil
  obtain ⟨out', hadv, hdata, hne⟩ := advance_spec
    (n := min n (iov.filter (· ≠ [])).flatten.length) hpieces (by omega)
  have hwritten : (iov.filter (· ≠ [])).flatten.take n ++ out'.flatten = iov.flatten := by
    rw [hdata, ← hflat]
    by_cases hle : n ≤ (iov.filter (· ≠ [])).flatten.length
    · rw [Nat.min_eq_left hle, List.take_append_drop]
    · rw [Nat.min_eq_right (by omega), List.drop_length, List.append_nil,
        List.take_of_length_le (by omega)]
  unfold send
  simp only [hu.state, gridAssert_pos hiov, gridAssert_pos, ok_bind, sendRaw, hadv, pure_eq_ok]
  by_cases hall : out' = []
  · rw [if_pos (by simp [hall])]
    exact ⟨_, _, _, rfl, ⟨⟨rfl, hu.fd, hu.nodup, hu.tasks⟩, sameIn_intro rfl rfl rfl rfl Iff.rfl,
      Or.inl ⟨rfl, ⟨hnot.task, hnot.pollOut, hall⟩, rfl⟩⟩, hwritten⟩
  · rw [if_neg (by simp [hall])]
    simp only [execute, gridAssert_pos hnot.task, ok_bind, pure_eq_ok]
    refine ⟨_, _, _, rfl, ⟨⟨rfl, hu.fd, nodup_append_task hu.nodup hnot.task, ?_⟩,
      sameIn_intro rfl rfl rfl rfl ?_, Or.inr ⟨rfl, ⟨hall, hne, Or.inl ⟨?_, hnot.pollOut⟩⟩, ?_⟩⟩,
      hwritten⟩
    · intro task ht
      rcases List.mem_append.mp ht with ht | ht
      · exact hu.tasks task ht
      · exact Or.inl (List.mem_singleton.mp ht)
    · simp
    · simp
    · simp

/-- The worker writes for an open send. -/
theorem fdOut_spec (hu : u.Steady) (hsend : u.Sending) (hpoll : u.pollOut = true) (n : Nat) :
    ∃ u' w e, u.fdOut (.bytes n) = .ok (u', w, e) ∧ Sent u u' e ∧
      w ++ u'.out.flatten = u.out.flatten ∧ u'.tasks = u.tasks ∧ (0 < n → w ≠ []) := by
  have htask : UsockTask.send ∉ u.tasks := by
    rcases hsend.worker with ⟨-, hoff⟩ | ⟨hno, -⟩
    · rw [hpoll] at hoff
      exact absurd hoff (by simp)
    · exact hno
  obtain ⟨out', hadv, hdata, hne⟩ := advance_spec
    (n := min n u.out.flatten.length) hsend.pieces (by omega)
  have hwritten : u.out.flatten.take n ++ out'.flatten = u.out.flatten := by
    rw [hdata]
    by_cases hle : n ≤ u.out.flatten.length
    · rw [Nat.min_eq_left hle, List.take_append_drop]
    · rw [Nat.min_eq_right (by omega), List.drop_length, List.append_nil,
        List.take_of_length_le (by omega)]
  have hprogress : 0 < n → u.out.flatten.take n ≠ [] := by
    intro hn hnil
    rcases List.take_eq_nil_iff.mp hnil with hz | hz
    · omega
    · obtain ⟨p, hp⟩ := List.exists_mem_of_ne_nil _ hsend.out
      exact hsend.pieces p hp (List.flatten_eq_nil_iff.mp hz p hp)
  unfold fdOut
  simp only [hu.state, sendRaw, hadv, ok_bind, pure_eq_ok]
  by_cases hall : out' = []
  · rw [if_pos (by simp [hall])]
    exact ⟨_, _, _, rfl, ⟨⟨rfl, hu.fd, hu.nodup, hu.tasks⟩, sameIn_intro rfl rfl rfl rfl Iff.rfl,
      Or.inl ⟨rfl, ⟨htask, rfl, hall⟩, rfl⟩⟩, hwritten, rfl, hprogress⟩
  · rw [if_neg (by simp [hall])]
    exact ⟨_, _, _, rfl, ⟨⟨rfl, hu.fd, hu.nodup, hu.tasks⟩, sameIn_intro rfl rfl rfl rfl Iff.rfl,
      Or.inr ⟨rfl, ⟨hall, hne, Or.inr ⟨htask, hpoll⟩⟩, Nat.le_succ _⟩⟩, hwritten, rfl, hprogress⟩

/-! ## The worker's tasks -/

/-- The worker begins to poll for the next of its tasks. -/
theorem runTask_spec (hu : u.Steady) {task : UsockTask} {tasks : List UsockTask}
    (htasks : u.tasks = task :: tasks) :
    ∃ u', u.runTask = .ok (u', none) ∧ u'.Steady ∧ SameIn u u' ∧ SameOut u u' ∧
      u'.tasks = tasks := by
  have hnd := List.nodup_cons.mp (htasks ▸ hu.nodup)
  have hmem : ∀ t, t ∈ tasks → t ∈ u.tasks := fun t ht => by
    rw [htasks]
    exact List.mem_cons_of_mem task ht
  rcases hu.tasks task (by rw [htasks]; exact List.mem_cons_self) with rfl | rfl
  · refine ⟨{ u with tasks := tasks, pollOut := true }, ?_,
      ⟨hu.state, hu.fd, hnd.2, fun t ht => hu.tasks t (hmem t ht)⟩,
      sameIn_intro rfl rfl rfl rfl ?_, ⟨rfl, ?_, ?_⟩, rfl⟩
    · simp [runTask, htasks, feedTask, hu.fd]
    · simp [htasks]
    · intro h
      exact absurd (by simp [htasks]) h.task
    · exact fun h => ⟨h.out, h.pieces, Or.inr ⟨hnd.1, rfl⟩⟩
  · refine ⟨{ u with tasks := tasks, pollIn := true }, ?_,
      ⟨hu.state, hu.fd, hnd.2, fun t ht => hu.tasks t (hmem t ht)⟩,
      ⟨rfl, rfl, rfl, ?_, ?_⟩, sameOut_intro rfl rfl ?_, rfl⟩
    · simp [runTask, htasks, feedTask, hu.fd]
    · intro h
      exact absurd (by simp [htasks]) h.task
    · exact fun h => ⟨h.inLen, h.batch, Or.inr ⟨hnd.1, rfl⟩⟩
    · simp [htasks]

end GridMq.Aio.Usock
