import ElementHost.Proofs.Link.Session

/-!
# The attempts of a write

A write that has the token is made in attempts, and everything it does is fixed by what the bus
answers to each of them.  The answers are taken from any behaviour of the bus, as a sequence: the
answer to each attempt is what the bus says when all attempts before it have failed.

* `attempted`, what is done in a number of attempts, and `Behaviour.answer`, the sequence of
  answers; `Behaviour.following` has any sequence that is given;
* `attemptsMade`, the place of the first success, and its recursion;
* `run_writeFrom_eq`, the attempts of a write from any of them on, and `run_write_of_free`;
* `writeChecked`, the same attempts with a counter that may not wrap;
* `write_attempted`, the whole course of a write.
-/

namespace ElementHost.Link

/-! ### What is done -/

section Attempted

variable (config : Config) (data : Bytes)

/-- One attempt of a write. -/
def attempt : Action := .write config.address data config.stop

/-- The pause between two attempts. -/
def pause : Action := .delay .micros config.retryMicros

/-- What is done in `k` attempts: the same write each time, with one pause between any two. -/
def attempted (k : ℕ) : List Action :=
  (List.replicate k (attempt config data)).intersperse (pause config)

theorem attempted_one : attempted config data 1 = [attempt config data] := rfl

theorem attempted_succ {k : ℕ} (h : 0 < k) :
    attempted config data (k + 1) =
      [attempt config data, pause config] ++ attempted config data k := by
  cases k with
  | zero => exact absurd h (Nat.lt_irrefl 0)
  | succ k => rfl

/-- What was done before an attempt, if `i` attempts have failed before it. -/
def failed : ℕ → List Action
  | 0 => []
  | i + 1 => [attempt config data, pause config] ++ failed i

/-- What a bus answers to the attempts of a write, as a sequence. -/
def Behaviour.answer (bus : Behaviour) (done : List Action) (i : ℕ) : Except Fault Unit :=
  bus.write (done ++ failed config data i) config.address data config.stop

theorem Behaviour.answer_zero (bus : Behaviour) (done : List Action) :
    bus.answer config data done 0 = bus.write done config.address data config.stop := by
  rw [answer, failed, List.append_nil]

/-- After a failure the sequence goes on from the next attempt. -/
theorem Behaviour.answer_succ (bus : Behaviour) (done : List Action) (i : ℕ) :
    bus.answer config data done (i + 1) =
      bus.answer config data (done ++ [attempt config data, pause config]) i := by
  rw [answer, answer, failed, List.append_assoc]

end Attempted

/-- A bus that answers its writes, from the first on, with a sequence that is given. -/
def Behaviour.following (answers : ℕ → Except Fault Unit) : Behaviour where
  write done _ _ _ := answers (done.countP fun action => action matches .write ..)
  read _ _ buffer _ := (.ok (), buffer)
  configure _ _ := .ok ()

/-- Every sequence of answers is that of some bus. -/
theorem Behaviour.answer_following (answers : ℕ → Except Fault Unit) (config : Config)
    (data : Bytes) : (following answers).answer config data [] = answers := by
  have hcount (i : ℕ) :
      (failed config data i).countP (fun action => action matches .write ..) = i := by
    induction i with
    | zero => rfl
    | succ i ih => simp [failed, attempt, pause, ih]
  funext i
  exact congrArg answers (hcount i)

/-! ### How many attempts are made -/

/-- The place, counted from 1, of the first success among the first `n` answers, or `n` if there is
none. -/
def attemptsMade (n : ℕ) (answers : ℕ → Except Fault Unit) : ℕ :=
  (((List.range n).map answers).findIdx? Except.isOk).elim n (· + 1)

section AttemptsMade

variable {n : ℕ} {answers : ℕ → Except Fault Unit}

theorem map_range_succ (n : ℕ) (answers : ℕ → Except Fault Unit) :
    (List.range (n + 1)).map answers =
      answers 0 :: (List.range n).map fun i => answers (i + 1) := by
  rw [List.range_succ_eq_map, List.map_cons, List.map_map]
  rfl

theorem attemptsMade_zero : attemptsMade 0 answers = 0 := rfl

theorem attemptsMade_succ_of_ok (h : answers 0 = .ok ()) : attemptsMade (n + 1) answers = 1 := by
  rw [attemptsMade, map_range_succ, h]
  rfl

theorem attemptsMade_succ_of_error {fault : Fault} (h : answers 0 = .error fault) :
    attemptsMade (n + 1) answers = attemptsMade n (fun i => answers (i + 1)) + 1 := by
  rw [attemptsMade, map_range_succ, List.findIdx?_cons, h, attemptsMade]
  cases ((List.range n).map fun i => answers (i + 1)).findIdx? Except.isOk <;> rfl

theorem attemptsMade_pos (h : 0 < n) : 0 < attemptsMade n answers := by
  unfold attemptsMade
  cases ((List.range n).map answers).findIdx? Except.isOk with
  | none => exact h
  | some i => exact Nat.succ_pos i

/-- Where the attempts end: at a success, or else with the last one that is allowed. -/
theorem attemptsMade_ends (n : ℕ) (answers : ℕ → Except Fault Unit) :
    (∃ i < n, answers i = .ok ()) ∧ answers (attemptsMade n answers - 1) = .ok () ∨
      (∀ i < n, answers i ≠ .ok ()) ∧ attemptsMade n answers = n := by
  induction n generalizing answers with
  | zero => exact .inr ⟨by simp, rfl⟩
  | succ n ih =>
    cases h : answers 0 with
    | ok =>
      exact .inl ⟨⟨0, n.succ_pos, h⟩, by rw [attemptsMade_succ_of_ok h]; exact h⟩
    | error fault =>
      rw [attemptsMade_succ_of_error h]
      obtain ⟨⟨i, hi, hok⟩, hlast⟩ | ⟨hnone, hn⟩ := ih fun i => answers (i + 1)
      · have hpos : 0 < attemptsMade n fun i => answers (i + 1) :=
          attemptsMade_pos (Nat.zero_lt_of_lt hi)
        refine .inl ⟨⟨i + 1, Nat.succ_lt_succ hi, hok⟩, ?_⟩
        rwa [Nat.sub_add_cancel hpos] at hlast
      · refine .inr ⟨fun i hi => ?_, by rw [hn]⟩
        cases i with
        | zero => simp [h]
        | succ i => exact hnone i (Nat.lt_of_succ_lt_succ hi)

end AttemptsMade

/-! ### The loop -/

section Loop

variable (bus : Behaviour) (config : Config) (data : Bytes) {counter : UInt8} {done : List Action}

/-- A successful attempt is the last. -/
theorem run_writeFrom_of_ok (h : bus.answer config data done 0 = .ok ()) :
    (writeFrom bus.wiring config data counter).run done =
      pure (.ok (), done ++ [attempt config data]) := by
  rw [Behaviour.answer_zero] at h
  rw [writeFrom, Peer.write_eq]
  simp [Config.peer, h, attempt]

/-- So is a failed one that has the highest number. -/
theorem run_writeFrom_of_error {fault : Fault}
    (h : bus.answer config data done 0 = .error fault) (hlast : ¬ counter < config.attempts) :
    (writeFrom bus.wiring config data counter).run done =
      pure (.error fault, done ++ [attempt config data]) := by
  rw [Behaviour.answer_zero] at h
  rw [writeFrom, Peer.write_eq]
  simp [Config.peer, h, hlast, attempt]

/-- Any other failed attempt is followed by a pause and the next one. -/
theorem run_writeFrom_again {fault : Fault}
    (h : bus.answer config data done 0 = .error fault) (hlt : counter < config.attempts) :
    (writeFrom bus.wiring config data counter).run done =
      (writeFrom bus.wiring config data (counter + 1)).run
        (done ++ [attempt config data, pause config]) := by
  rw [Behaviour.answer_zero] at h
  rw [writeFrom, Peer.write_eq]
  simp [Config.peer, h, hlt, attempt, pause]

/-- The attempts of a write from any of them on: what is done and what comes of it are fixed by the
answers to the attempts that are left. -/
theorem run_writeFrom_eq (left : ℕ) (hleft : counter.toNat + left = config.attempts.toNat)
    (done : List Action) :
    (writeFrom bus.wiring config data counter).run done =
      pure (bus.answer config data done
          (attemptsMade (left + 1) (bus.answer config data done) - 1),
        done ++ attempted config data (attemptsMade (left + 1) (bus.answer config data done))) := by
  -- by induction on the attempts that are left after this one
  induction left generalizing counter done with
  | zero =>
    have hlast : ¬ counter < config.attempts := by
      show ¬ counter.toNat < config.attempts.toNat
      omega
    cases h : bus.answer config data done 0 with
    | ok =>
      rw [run_writeFrom_of_ok bus config data h, attemptsMade_succ_of_ok h, attempted_one,
        Nat.sub_self, h]
    | error fault =>
      rw [run_writeFrom_of_error bus config data h hlast, attemptsMade_succ_of_error h,
        attemptsMade_zero, Nat.zero_add, attempted_one, Nat.sub_self, h]
  | succ left ih =>
    have hlt : counter < config.attempts := by
      show counter.toNat < config.attempts.toNat
      omega
    cases h : bus.answer config data done 0 with
    | ok =>
      rw [run_writeFrom_of_ok bus config data h, attemptsMade_succ_of_ok h, attempted_one,
        Nat.sub_self, h]
    | error fault =>
      let again := done ++ [attempt config data, pause config]
      have hshift : (fun i => bus.answer config data done (i + 1)) = bus.answer config data again :=
        funext (bus.answer_succ config data done)
      have hpos : 0 < attemptsMade (left + 1) (bus.answer config data again) :=
        attemptsMade_pos left.succ_pos
      rw [run_writeFrom_again bus config data h hlt, ih (by rw [toNat_succ_of_lt hlt]; omega) again,
        attemptsMade_succ_of_error h, hshift, attempted_succ _ _ hpos, ← bus.answer_succ,
        Nat.sub_add_cancel hpos, Nat.add_sub_cancel, List.append_assoc]

end Loop

/-! ### The counter -/

section Checked

variable {m : Type → Type} [Monad m]

/-- The attempts of a write with a counter that may not wrap: there is no result if it would. -/
def writeChecked (wiring : Wiring m) (config : Config) (data : Bytes) (counter : UInt8) :
    OptionT m (Except Fault Unit) := do
  match ← OptionT.lift (config.peer.write wiring.bus data) with
  | .ok () => return .ok ()
  | .error fault =>
    if _h : counter < config.attempts then
      OptionT.lift (wiring.delay.micros config.retryMicros)
      if counter.toNat + 1 < UInt8.size then
        writeChecked wiring config data (counter + 1)
      else
        failure
    else
      return .error fault
termination_by config.attempts.toNat - counter.toNat
decreasing_by
  have h : counter.toNat < config.attempts.toNat := _h
  rw [toNat_succ_of_lt _h]
  omega

/-- The counter never wraps: the checked attempts have a result, and it is that of the others. -/
theorem run_writeChecked [LawfulMonad m] (wiring : Wiring m) (config : Config) (data : Bytes)
    (counter : UInt8) :
    (writeChecked wiring config data counter).run =
      some <$> writeFrom wiring config data counter := by
  induction counter using writeFrom.induct config with
  | case1 counter ih =>
    rw [writeChecked, writeFrom, OptionT.run_bind, OptionT.run_lift, bind_pure_comp,
      Option.elimM, bind_map_left, map_bind]
    congr 1
    funext result
    cases result with
    | ok => simp
    | error fault =>
      by_cases hlt : counter < config.attempts
      · have hroom : counter.toNat + 1 < UInt8.size := by
          have hcounter : counter.toNat < config.attempts.toNat := hlt
          exact Nat.lt_of_le_of_lt hcounter config.attempts.toNat_lt
        simp [hlt, hroom, ih hlt]
      · simp [hlt]

end Checked

/-! ### The whole write -/

/-- The attempts a write is given are those asked for, or one. -/
theorem Config.toNat_attempts (config : Config) :
    config.attempts.toNat = max 1 config.maxAttempts.toNat := by
  have hone := config.one_le_attempts
  by_cases h : config.maxAttempts = 0
  · rw [attempts, if_pos h, h]
    rfl
  · rw [attempts, if_neg h] at hone ⊢
    exact (Nat.max_eq_right hone).symm

/-- A write that finds the token free makes its attempts and reports the result of the last. -/
theorem run_write_of_free (bus : Behaviour) (data : Bytes) {link : Link}
    (h : link.token.held = false) (done : List Action) :
    let answer := bus.answer link.config data done
    let k := attemptsMade (max 1 link.config.maxAttempts.toNat) answer
    ((write bus.wiring data).run link).run done =
      pure (((answer (k - 1)).mapError .bus, link), done ++ attempted link.config data k ++
        [.report (.ofResult ((answer (k - 1)).mapError .bus))]) := by
  intro answer k
  have hn : 0 < max 1 link.config.maxAttempts.toNat :=
    Nat.lt_of_lt_of_le Nat.zero_lt_one (Nat.le_max_left ..)
  have hleft : (1 : UInt8).toNat + (max 1 link.config.maxAttempts.toNat - 1) =
      link.config.attempts.toNat := by
    rw [Config.toNat_attempts]
    exact Nat.add_sub_of_le hn
  have hloop := run_writeFrom_eq bus link.config data _ hleft done
  rw [Nat.sub_add_cancel hn] at hloop
  simp [run_write, send, h, hloop, run_report, answer, k]

/-- **The whole course of a write.**  Let `n` attempts be allowed, and let `k` be the place of the
first success among the first `n` answers of the bus, or `n` if there is none.  A write that finds
the token free makes `k` attempts, each of them the same write to the peer, with one pause between
any two and none before or after them; then it reports.  Its result is a success exactly if one of
the first `n` answers is, and otherwise the fault of the last.  Its counter never wraps. -/
theorem write_attempted (bus : Behaviour) (data : Bytes) (link : Link)
    (h : link.token.held = false) (done : List Action) :
    let n := max 1 link.config.maxAttempts.toNat
    let answer := bus.answer link.config data done
    let k := attemptsMade n answer
    ∃ result,
      ((write bus.wiring data).run link).run done =
        pure ((result, link),
          done ++ attempted link.config data k ++ [.report (.ofResult result)]) ∧
        (result = .ok () ↔ ∃ i < n, answer i = .ok ()) ∧
        ((∀ i < n, answer i ≠ .ok ()) →
          ∃ fault, answer (n - 1) = .error fault ∧ result = .error (.bus fault)) ∧
        (writeChecked bus.wiring link.config data 1).run =
          some <$> writeFrom bus.wiring link.config data 1 := by
  intro n answer k
  have hn : 0 < n := Nat.lt_of_lt_of_le Nat.zero_lt_one (Nat.le_max_left ..)
  have hrun : ((write bus.wiring data).run link).run done =
      pure (((answer (k - 1)).mapError .bus, link), done ++ attempted link.config data k ++
        [.report (.ofResult ((answer (k - 1)).mapError .bus))]) :=
    run_write_of_free bus data h done
  obtain ⟨⟨i, hi, hok⟩, hlast⟩ | ⟨hnone, hk⟩ := attemptsMade_ends n answer
  · rw [hlast] at hrun
    exact ⟨.ok (), hrun, iff_of_true rfl ⟨i, hi, hok⟩, fun hnone => absurd hok (hnone i hi),
      run_writeChecked ..⟩
  · obtain ⟨fault, hfault⟩ : ∃ fault, answer (n - 1) = .error fault := by
      cases hanswer : answer (n - 1) with
      | ok => exact absurd hanswer (hnone (n - 1) (Nat.sub_lt hn Nat.one_pos))
      | error fault => exact ⟨fault, rfl⟩
    have hsome : ¬ ∃ i < n, answer i = .ok () := fun ⟨i, hi, hok⟩ => hnone i hi hok
    rw [show k - 1 = n - 1 from congrArg (· - 1) hk, hfault] at hrun
    exact ⟨.error (.bus fault), hrun, iff_of_false (by simp) hsome,
      fun _ => ⟨fault, hfault, rfl⟩, run_writeChecked ..⟩

/-- With as many attempts as the counter can count, the last of them may succeed. -/
theorem write_attempted_last :
    let answers (i : ℕ) : Except Fault Unit := if i < 254 then .error .nack else .ok ()
    let link : Link := { config := { maxAttempts := 255 } }
    let bus := Behaviour.following answers
    link.token.held = false ∧
      ((write bus.wiring [7]).run link).run [] =
        pure ((.ok (), link), attempted link.config [7] 255 ++ [.report .success]) := by
  intro answers link bus
  refine ⟨rfl, ?_⟩
  obtain ⟨result, hrun, hok, -⟩ := write_attempted bus [7] link rfl []
  rw [show bus.answer link.config [7] [] = answers from Behaviour.answer_following ..] at hrun hok
  have hresult : result = .ok () := hok.2 ⟨254, by decide, rfl⟩
  have hmade : attemptsMade (max 1 link.config.maxAttempts.toNat) answers = 255 := by decide +kernel
  rw [hrun, hresult, hmade]
  rfl

end ElementHost.Link
