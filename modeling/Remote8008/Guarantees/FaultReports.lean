import Remote8008.Guarantees.SendExact
import Remote8008.Guarantees.StickyErrors

/-!
# Every fault is reported

host/b8008net/console.py:156-201 against soc/console_bridge.py:178-211. The sticky bits
keep a fault until it is read, and `check_errors` clears only what it has read and is
about to report. A clear is a datagram without acknowledgement, so it can take effect
after the report of its read was printed, and then it takes a newer fault of the same
bit with it. That window is the only one: a fault outside it is named on standard error
by the end of the first iteration that reads `console_err` after it.
-/

namespace Remote8008.Guarantees.FaultReports
open Lib.Interaction Lib.Machine
open Source.ConsoleBridge Source.Console Source.ConsolePump System.BridgeSession

variable {rxDepth txDepth : Nat}

/-! ## The text of a report -/

/-- The line is a report whose list of conditions has the name of `bit` in it. -/
def Names (line : String) (bit : Fin 3) : Prop :=
  ∃ names, errorName bit ∈ names ∧
    line = "-- console: error condition detected (" ++ ", ".intercalate names ++
      ") -- bytes may be missing from this transcript --"

theorem intercalate_ne_empty (sep : String) {name : String} (visible : name ≠ "")
    {names : List String}
    (member : name ∈ names) : sep.intercalate names ≠ "" := by
  induction names with
  | nil => simp at member
  | cons first rest ih =>
    cases rest with
    | nil =>
      obtain rfl : name = first := by simpa using member
      simpa using visible
    | cons second rest =>
      rw [String.intercalate_cons_cons]
      rcases List.mem_cons.mp member with rfl | later
      · simp [visible]
      · simp [ih later]

theorem errorName_ne_empty (bit : Fin 3) : errorName bit ≠ "" := by
  match bit with
  | 0 => simp [errorName]
  | 1 => simp [errorName]
  | 2 => simp [errorName]

theorem errorReport_names {err : Nat} {bit : Fin 3} (set : err.testBit bit.val = true) :
    Names (errorReport err) bit := by
  have member : errorName bit ∈ describeErrors err := by
    simp only [describeErrors, List.mem_map, List.mem_filter]
    exact ⟨bit, ⟨List.mem_finRange bit, set⟩, rfl⟩
  refine ⟨describeErrors err, member, ?_⟩
  have visible := intercalate_ne_empty ", " (errorName_ne_empty bit) member
  unfold errorReport
  generalize ", ".intercalate (describeErrors err) = names at visible ⊢
  simp only [if_neg visible]

/-! ## What an iteration does -/

/-- The word read from `console_err` that is still to be reported, and the bytes drained
that are still to be written out. -/
structure Duty where
  unreported : Option Nat
  undelivered : List UInt8

/-- A clear carries the word read, the report of it comes before the next read, and
standard output carries the drained bytes. -/
def reports : Monitor Port Item Duty where
  follow h
    | .read (.csr .consoleErr) item =>
      { h with unreported := if item.toWord = 0 then none else some item.toWord }
    | .read (.csr .consoleRx) item =>
      if ShowsByte item then
        { h with undelivered := h.undelivered ++ [UInt8.ofNat (item.toWord &&& rxDataMask)] }
      else h
    | .write .stderr _ => { h with unreported := none }
    | .write .stdout _ => { h with undelivered := [] }
    | _ => h
  allows h
    | .read (.csr .consoleErr) _ => h.unreported = none
    | .write (.csr .consoleErrClear) item => ∃ err, h.unreported = some err ∧ item = .word err
    | .write .stderr item => ∀ err, h.unreported = some err → item = .text (errorReport err)
    | .write .stdout item => item = .bytes h.undelivered
    | _ => True

def Duty.none : Duty := ⟨Option.none, []⟩

theorem checkErrors_meets :
    (onBus (checkErrors true)).Wp reports
      (fun err h => h = ⟨if err = 0 then none else some err, []⟩) .none := by
  intro item
  refine ⟨rfl, ?_⟩
  change (onBus (if item.toWord ≠ 0 ∧ true = true then _ else _)).Wp reports _
    ⟨if item.toWord = 0 then none else some item.toWord, []⟩
  split
  next set => exact ⟨⟨item.toWord, by simp [set.1], rfl⟩, rfl⟩
  next clear => rfl

theorem announce_meets (err : Nat) :
    (announce err).Wp reports (fun _ h => h = .none) ⟨if err = 0 then none else some err, []⟩ := by
  unfold announce
  split
  next set => exact ⟨fun other same => by simp_all, rfl⟩
  next clear =>
    obtain rfl : err = 0 := by simpa using clear
    rfl

theorem drainLoop_meets (left : Nat) (out : List UInt8) :
    (onBus (drainLoop left out)).Wp reports (fun result h => h = ⟨none, result⟩) ⟨none, out⟩ := by
  induction left generalizing out with
  | zero => rfl
  | succ left ih =>
    intro item
    refine ⟨trivial, ?_⟩
    change (onBus (if item.toWord &&& rxValidBit = 0 then _ else _)).Wp reports _
      (if ShowsByte item then _ else _)
    split
    next empty =>
      rw [if_neg (by simpa [ShowsByte] using empty)]
      rfl
    next valid =>
      rw [if_pos (show ShowsByte item from valid)]
      exact ⟨trivial, ih _⟩

theorem forward_meets (out : List UInt8) :
    (forward out).Wp reports (fun _ h => h = .none) ⟨none, out⟩ := by
  unfold forward
  split
  · exact ⟨rfl, rfl⟩
  next nothing =>
    obtain rfl : out = [] := by simpa using nothing
    rfl

/-- `send` touches neither the error register nor the streams. -/
theorem send_neutral (polls : Nat) (data : List UInt8) :
    (onBus (send polls data)).Wp reports (fun _ h => h = .none) .none := by
  have simulates : ∀ (g : SendExact.History) (h : Duty) (o : Op Port Item),
      SendExact.sends.allows g o → h = .none →
      reports.allows h o ∧ reports.follow h o = .none := by
    rintro g h (⟨port, item⟩ | ⟨port, item⟩) allowed rfl
    · obtain rfl : port = .csr .consoleTx := allowed
      exact ⟨trivial, rfl⟩
    · obtain rfl : port = .csr .consoleTxData := allowed.1
      exact ⟨trivial, rfl⟩
  have meets := Prog.wp_transfer (fun _ h => h = Duty.none) simulates rfl
    (SendExact.send_meets polls data)
  exact Prog.wp_mono (fun _ _ ⟨_, reached, _⟩ => reached) meets

theorem sendAndReport_meets (polls : Nat) (data : List UInt8) :
    (sendAndReport polls data).Wp reports (fun _ h => h = .none) .none := by
  refine Prog.wp_bind (Prog.wp_mono ?_ (send_neutral polls data))
  rintro accepted h rfl
  split
  · exact ⟨fun err none => by simp [Duty.none] at none, rfl⟩
  · rfl

theorem pumpStdin_meets (polls : Nat) :
    (pumpStdin polls).Wp reports (fun _ h => h = .none) .none := by
  intro item
  refine ⟨trivial, ?_⟩
  change Prog.Wp reports _ (if item.toBytes = [] then _ else _) Duty.none
  split
  · rfl
  · split
    · split
      · exact Prog.wp_bind (Prog.wp_mono (fun _ _ done => done) (sendAndReport_meets polls _))
      · rfl
    · exact Prog.wp_bind (Prog.wp_mono (fun _ _ done => done) (sendAndReport_meets polls _))

theorem consolePump_meets (polls : Nat) (stdinReady : Bool) :
    (consolePump polls stdinReady).Wp reports (fun _ h => h = .none) .none := by
  refine Prog.wp_bind (Prog.wp_mono ?_ checkErrors_meets)
  rintro err h rfl
  refine Prog.wp_bind (Prog.wp_mono ?_ (announce_meets err))
  rintro - h rfl
  refine Prog.wp_bind (Prog.wp_mono ?_ (drainLoop_meets drainMaxBytes []))
  rintro out h rfl
  refine Prog.wp_bind (Prog.wp_mono ?_ (forward_meets out))
  rintro - h rfl
  split
  · exact pumpStdin_meets polls
  · rfl

/-! ## A fault from its cycle on -/

def duty (trace : List (Obs rxDepth txDepth Bool)) : Duty :=
  reports.after .none (operations trace)

@[simp] theorem duty_edge (trace : List (Obs rxDepth txDepth Bool)) (b : State rxDepth txDepth)
    (c : Cycle) : duty (trace ++ [.edge b c]) = duty trace := by
  simp [duty]

@[simp] theorem duty_called (trace : List (Obs rxDepth txDepth Bool)) :
    duty (trace ++ [.called]) = duty trace := by
  simp [duty]

@[simp] theorem duty_returned (trace : List (Obs rxDepth txDepth Bool)) (value : Bool) :
    duty (trace ++ [.returned value]) = duty trace := by
  simp [duty]

theorem duty_op (trace : List (Obs rxDepth txDepth Bool)) (o : Op Port Item) :
    duty (trace ++ [.op o]) = reports.follow (duty trace) o := by
  rw [duty, operations_append, operations_op, reports.after_concat]
  rfl

theorem unreported_read (h : Duty) {port : Port} (other : port ≠ .csr .consoleErr) (item : Item) :
    (reports.follow h (.read port item)).unreported = h.unreported := by
  simp only [reports]
  split
  · simp_all
  · split <;> rfl
  all_goals simp_all

theorem unreported_write (h : Duty) {port : Port} (other : port ≠ .stderr) (item : Item) :
    (reports.follow h (.write port item)).unreported = h.unreported := by
  simp only [reports]
  split <;> simp_all

/-- No other master clears errors. -/
def SoleClearer : Event Bool → Prop
  | .cycle env _ => env.consoleErrClear = none
  | .host _ | .lost | .calls _ | .returns => True

/-- A clear in flight during an iteration that has yet to report is of the word read. -/
def Matched (s : Sys rxDepth txDepth Bool) : Prop :=
  ∀ mask err, (.consoleErrClear, mask) ∈ s.flight →
    (duty s.trace).unreported = some err → mask = err

/-- A clear of `bit` is still under way although the report of its read is printed. -/
def LateClear (s : Sys rxDepth txDepth Bool) (bit : Fin 3) : Prop :=
  (duty s.trace).unreported = none ∧
    ∃ mask, (.consoleErrClear, mask) ∈ s.flight ∧ mask.testBit bit.val = true

/-- A report that names `bit` is among the observations. -/
def Reported (bit : Fin 3) (trace : List (Obs rxDepth txDepth Bool)) : Prop :=
  ∃ line, Names line bit ∧ .op (.write .stderr (.text line)) ∈ trace

/-- By the end of an iteration that reads `console_err`, `bit` has been reported. -/
def Timely (bit : Fin 3) (post : List (Obs rxDepth txDepth Bool)) : Prop :=
  ∀ earlier item during value rest,
    post = earlier ++ .op (.read (.csr .consoleErr) item) :: during ++ .returned value :: rest →
    Reported bit (earlier ++ during)

def Unread (post : List (Obs rxDepth txDepth Bool)) : Prop :=
  ∀ item, .op (.read (.csr .consoleErr) item) ∉ post

/-- The fault is in its sticky bit and nothing under way can clear it. -/
structure Armed (bit : Fin 3) (s : Sys rxDepth txDepth Bool) : Prop where
  on : s.bridge.sticky bit = true
  flight : ∀ mask, (.consoleErrClear, mask) ∈ s.flight → mask.testBit bit.val = false
  unreported : ∀ err, (duty s.trace).unreported = some err → err.testBit bit.val = false

/-- Where the report of a fault stands: printed, due in this iteration, or in the bit. -/
inductive Standing (bit : Fin 3) (s : Sys rxDepth txDepth Bool)
    (post : List (Obs rxDepth txDepth Bool)) : Prop where
  | reported (done : Reported bit post)
  | due (err : Nat) (word : (duty s.trace).unreported = some err)
      (set : err.testBit bit.val = true)
  | armed (unread : Unread post) (armed : Armed bit s)

theorem Reported.append {bit : Fin 3} {trace : List (Obs rxDepth txDepth Bool)}
    (reported : Reported bit trace) (more : List (Obs rxDepth txDepth Bool)) :
    Reported bit (trace ++ more) := by
  obtain ⟨line, names, member⟩ := reported
  exact ⟨line, names, List.mem_append_left _ member⟩

theorem Unread.concat {post : List (Obs rxDepth txDepth Bool)} (unread : Unread post)
    {obs : Obs rxDepth txDepth Bool} (other : ∀ item, obs ≠ .op (.read (.csr .consoleErr) item)) :
    Unread (post ++ [obs]) := by
  intro item member
  rcases List.mem_append.mp member with old | new
  · exact unread item old
  · exact other item (List.mem_singleton.mp new).symm

/-- Only a return can be late, and not once the report is out or before the first read. -/
theorem Timely.concat {bit : Fin 3} {post : List (Obs rxDepth txDepth Bool)}
    (timely : Timely bit post) {obs : Obs rxDepth txDepth Bool}
    (safe : (∀ value, obs ≠ .returned value) ∨ Reported bit post ∨ Unread post) :
    Timely bit (post ++ [obs]) := by
  intro earlier item during value rest split
  rcases concat_eq_append_cons split with ⟨same, rfl⟩ | ⟨others, front⟩
  · rcases safe with other | reported | unread
    · exact absurd rfl (other value)
    · obtain ⟨line, names, member⟩ := reported
      refine ⟨line, names, ?_⟩
      simpa [same] using member
    · exact absurd (by simp [same]) (unread item)
  · exact timely earlier item during value others front

theorem clears_of_strobe {env : Cycle} (sole : env.consoleErrClear = none) {reg : Reg}
    {value : Nat} {bit : Fin 3} (clears : State.clears (strobe env value reg) bit = true) :
    reg = .consoleErrClear ∧ value.testBit bit.val = true := by
  cases reg with
  | consoleErrClear =>
    have word : (value % 2 ^ 32).testBit bit.val = true := by
      simpa [State.clears, strobe] using clears
    rw [Nat.testBit_mod_two_pow] at word
    exact ⟨rfl, by simp_all⟩
  | _ => simp [State.clears, strobe, sole] at clears

theorem Armed.edge {bit : Fin 3} {s : Sys rxDepth txDepth Bool} (armed : Armed bit s) {env : Cycle}
    (sole : env.consoleErrClear = none) :
    Armed bit { s with
      bridge := s.bridge.step env, trace := s.trace ++ [.edge s.bridge env] } where
  on := StickyErrors.sticky_stays armed.on (by simp [State.clears, sole])
  flight := armed.flight
  unreported := by simpa using armed.unreported

theorem Armed.lands {bit : Fin 3} {s : Sys rxDepth txDepth Bool} (armed : Armed bit s) {env : Cycle}
    (sole : env.consoleErrClear = none) {reg : Reg} {value : Nat} {rest : List (Reg × Nat)}
    (first : s.flight = (reg, value) :: rest) :
    Armed bit { s with
      bridge := s.bridge.step (strobe env value reg)
      flight := rest
      trace := s.trace ++ [.edge s.bridge (strobe env value reg)] } where
  on := by
    refine StickyErrors.sticky_stays armed.on fun clears => ?_
    obtain ⟨rfl, set⟩ := clears_of_strobe sole clears
    simp [armed.flight value (by simp [first])] at set
  flight := fun mask member => armed.flight mask (by simp [first, member])
  unreported := by simpa using armed.unreported

theorem Armed.op {bit : Fin 3} {s : Sys rxDepth txDepth Bool} (armed : Armed bit s)
    {o : Op Port Item} {next : Client Bool} {flight : List (Reg × Nat)}
    (masks : ∀ mask, (.consoleErrClear, mask) ∈ flight → mask.testBit bit.val = false)
    (kept : ∀ err, (reports.follow (duty s.trace) o).unreported = some err →
      err.testBit bit.val = false) :
    Armed bit ⟨s.bridge, some next, flight, s.trace ++ [.op o]⟩ :=
  ⟨armed.on, masks, by rwa [duty_op]⟩

section
variable {polls : Nat} {bit : Fin 3} {s s' : Sys rxDepth txDepth Bool} {event : Event Bool}
  {base post : List (Obs rxDepth txDepth Bool)}

/-- A printed report stays printed. -/
theorem Reported.step (move : Move (consolePump polls) s event s') (since : s.trace = base ++ post)
    (timely : Timely bit post) (done : Reported bit post) :
    ∃ post', s'.trace = base ++ post' ∧ Timely bit post' ∧ Standing bit s' post' := by
  have grows : s'.trace = s.trace ∨ ∃ obs, s'.trace = s.trace ++ [obs] := by
    cases move with
    | stay | lost => exact .inl rfl
    | _ => exact .inr ⟨_, rfl⟩
  rcases grows with same | ⟨obs, more⟩
  · exact ⟨post, same.trans since, timely, .reported done⟩
  · exact ⟨post ++ [obs], by simp [more, since], timely.concat (.inr (.inl done)),
      .reported (done.append _)⟩

/-- A report that is due is printed before the iteration can end. -/
theorem Standing.step_due (move : Move (consolePump polls) s event s')
    (conforms : Conforms reports .none (· = .none) (fun _ h => h = .none) s)
    (since : s.trace = base ++ post) (timely : Timely bit post) {err : Nat}
    (word : (duty s.trace).unreported = some err) (set : err.testBit bit.val = true) :
    ∃ post', s'.trace = base ++ post' ∧ Timely bit post' ∧ Standing bit s' post' := by
  have busy : duty s.trace ≠ .none := fun none => by simp [none, Duty.none] at word
  have goes : ∀ {s' : Sys rxDepth txDepth Bool} {obs : Obs rxDepth txDepth Bool},
      s'.trace = s.trace ++ [obs] → (∀ value, obs ≠ .returned value) →
      (duty s'.trace).unreported = some err →
      ∃ post', s'.trace = base ++ post' ∧ Timely bit post' ∧ Standing bit s' post' :=
    fun more other still => ⟨post ++ [_], by simp [more, since], timely.concat (.inl other),
      .due err still set⟩
  cases move with
  | stay => exact ⟨post, since, timely, .due err word set⟩
  | lost => exact ⟨post, since, timely, .due err word set⟩
  | edge env => exact goes rfl (by simp) (by simpa using word)
  | lands env reg value rest first => exact goes rfl (by simp) (by simpa using word)
  | read input reg next reading landed =>
    have other : reg ≠ .consoleErr := by
      rintro rfl
      have free : (duty s.trace).unreported = none := (conforms.running _ reading (.word 0)).1
      simp [free] at word
    refine goes rfl (by simp) ?_
    rwa [duty_op, unreported_read _ (by simpa using other)]
  | input input next reading =>
    refine goes rfl (by simp) ?_
    rwa [duty_op, unreported_read _ (by simp)]
  | write input reg item next writing =>
    refine goes rfl (by simp) ?_
    rwa [duty_op, unreported_write _ (by simp)]
  | output input port item next writing stream =>
    by_cases printed : port = .stderr
    · obtain rfl := printed
      have line : item = .text (errorReport err) := (conforms.running _ writing).1 err word
      refine ⟨post ++ [.op (.write .stderr item)], by simp [since],
        timely.concat (.inl (by simp)), .reported ?_⟩
      exact ⟨errorReport err, errorReport_names set, by simp [line]⟩
    · refine goes rfl (by simp) ?_
      rwa [duty_op, unreported_write _ printed]
  | calls call idle => exact absurd (conforms.resting idle) busy
  | returns value finished => exact absurd (conforms.running _ finished) busy

/-- A fault in its sticky bit stays there until it is read. -/
theorem Standing.step_armed (sole : SoleClearer event)
    (move : Move (consolePump polls) s event s')
    (conforms : Conforms reports .none (· = .none) (fun _ h => h = .none) s)
    (since : s.trace = base ++ post) (timely : Timely bit post) (unread : Unread post)
    (armed : Armed bit s) :
    ∃ post', s'.trace = base ++ post' ∧ Timely bit post' ∧ Standing bit s' post' := by
  have goes : ∀ {s' : Sys rxDepth txDepth Bool} {obs : Obs rxDepth txDepth Bool},
      s'.trace = s.trace ++ [obs] → (∀ item, obs ≠ .op (.read (.csr .consoleErr) item)) →
      Armed bit s' →
      ∃ post', s'.trace = base ++ post' ∧ Timely bit post' ∧ Standing bit s' post' :=
    fun more other still => ⟨post ++ [_], by simp [more, since],
      timely.concat (.inr (.inr unread)), .armed (unread.concat other) still⟩
  cases move with
  | stay => exact ⟨post, since, timely, .armed unread armed⟩
  | lost =>
    refine ⟨post, since, timely, .armed unread ⟨armed.on, ?_, armed.unreported⟩⟩
    exact fun mask member => armed.flight mask (List.mem_of_mem_tail member)
  | edge env => exact goes rfl (by simp) (armed.edge sole)
  | lands env reg value rest first => exact goes rfl (by simp) (armed.lands sole first)
  | read input reg next reading landed =>
    by_cases same : reg = .consoleErr
    · obtain rfl := same
      have shown : (errWord s.bridge.sticky).testBit bit.val = true := by
        rw [StickyErrors.errWord_testBit, armed.on]
      have nonzero : errWord s.bridge.sticky ≠ 0 := fun zero => by simp [zero] at shown
      refine ⟨post ++ [.op (.read (.csr .consoleErr) (.word (errWord s.bridge.sticky)))],
        by simp [since, readCsr], timely.concat (.inl (by simp)),
        .due (errWord s.bridge.sticky) ?_ shown⟩
      rw [duty_op]
      simp [reports, Item.toWord, readCsr, nonzero]
    · refine goes rfl (by simpa using same) (armed.op armed.flight ?_)
      rw [unreported_read _ (by simpa using same)]
      exact armed.unreported
  | input input next reading =>
    refine goes rfl (by simp) (armed.op armed.flight ?_)
    rw [unreported_read _ (by simp)]
    exact armed.unreported
  | write input reg item next writing =>
    refine goes rfl (by simp) (armed.op ?_ ?_)
    · intro mask member
      rcases List.mem_append.mp member with old | new
      · exact armed.flight mask old
      · obtain ⟨rfl, rfl⟩ : .consoleErrClear = reg ∧ mask = item.toWord := by simpa using new
        obtain ⟨err, word, rfl⟩ := (conforms.running _ writing).1
        exact armed.unreported err word
    · rw [unreported_write _ (by simp)]
      exact armed.unreported
  | output input port item next writing stream =>
    refine goes rfl (by simp) (armed.op armed.flight ?_)
    by_cases printed : port = .stderr
    · obtain rfl := printed
      simp [reports]
    · rw [unreported_write _ printed]
      exact armed.unreported
  | calls call idle =>
    exact goes rfl (by simp) ⟨armed.on, armed.flight, by simpa using armed.unreported⟩
  | returns value finished =>
    exact goes rfl (by simp) ⟨armed.on, armed.flight, by simpa using armed.unreported⟩

theorem Standing.step (sole : SoleClearer event) (move : Move (consolePump polls) s event s')
    (conforms : Conforms reports .none (· = .none) (fun _ h => h = .none) s)
    (since : s.trace = base ++ post) (timely : Timely bit post) (standing : Standing bit s post) :
    ∃ post', s'.trace = base ++ post' ∧ Timely bit post' ∧ Standing bit s' post' := by
  cases standing with
  | reported done => exact done.step move since timely
  | due err word set => exact step_due move conforms since timely word set
  | armed unread armed => exact step_armed sole move conforms since timely unread armed

theorem Matched.step (move : Move (consolePump polls) s event s')
    (conforms : Conforms reports .none (· = .none) (fun _ h => h = .none) s)
    (matched : Matched s) : Matched s' := by
  cases move with
  | stay => exact matched
  | lost => exact fun mask err member => matched mask err (List.mem_of_mem_tail member)
  | edge env => simpa [Matched] using matched
  | lands env reg value rest first =>
    intro mask err member word
    exact matched mask err (by simp [first, show _ ∈ rest from member]) (by simpa using word)
  | read input reg next reading landed =>
    intro mask err member
    simp [landed] at member
  | input input next reading =>
    intro mask err member word
    rw [duty_op, unreported_read _ (by simp)] at word
    exact matched mask err member word
  | write input reg item next writing =>
    intro mask err member word
    rw [duty_op, unreported_write _ (by simp)] at word
    rcases List.mem_append.mp member with old | new
    · exact matched mask err old word
    · obtain ⟨rfl, rfl⟩ : .consoleErrClear = reg ∧ mask = item.toWord := by simpa using new
      obtain ⟨other, same, rfl⟩ := (conforms.running _ writing).1
      exact Option.some.inj (same.symm.trans word)
  | output input port item next writing stream =>
    intro mask err member word
    rw [duty_op] at word
    by_cases printed : port = .stderr
    · obtain rfl := printed
      simp [reports] at word
    · rw [unreported_write _ printed] at word
      exact matched mask err member word
  | calls call idle => simpa [Matched] using matched
  | returns value finished => simpa [Matched] using matched

end

/-! ## Runs of the loop -/

/-- Any number of iterations against a bridge in state `first`. -/
def pumped (polls : Nat) (first : State rxDepth txDepth) (events : List (Event Bool)) :
    Sys rxDepth txDepth Bool :=
  run (step (consolePump polls)) (.start first none) events

/-- What every state of the loop satisfies. -/
structure Dutiful (s : Sys rxDepth txDepth Bool) : Prop where
  conforms : Conforms reports .none (· = .none) (fun _ h => h = .none) s
  matched : Matched s

theorem Dutiful.step {polls : Nat} {s s' : Sys rxDepth txDepth Bool} {event : Event Bool}
    (move : Move (consolePump polls) s event s') (dutiful : Dutiful s) : Dutiful s' := by
  refine ⟨Conforms.step ?_ ?_ dutiful.conforms move, dutiful.matched.step move dutiful.conforms⟩
  · exact fun _ _ done => done
  · rintro ready h rfl
    exact consolePump_meets polls ready

theorem pumped_dutiful (polls : Nat) (first : State rxDepth txDepth)
    (events : List (Event Bool)) : Dutiful (pumped polls first events) := by
  refine run_invariant Dutiful (fun _ => True) ?_ events (fun _ _ => trivial) _ ?_
  · exact fun s event _ dutiful => dutiful.step (step_moves (consolePump polls) s event)
  · refine ⟨⟨by simp [Sys.start, Monitor.Allowed], fun _ => rfl, by simp [Sys.start]⟩, ?_⟩
    simp [Matched, Sys.start]

/-- Right after its cycle a fault is due or in its bit, unless a late clear is under way. -/
theorem fault_stands {s : Sys rxDepth txDepth Bool} {bit : Fin 3} (matched : Matched s)
    (on : s.bridge.sticky bit = true) (punctual : ¬ LateClear s bit) : Standing bit s [] := by
  cases word : (duty s.trace).unreported with
  | none =>
    refine .armed (by simp [Unread]) ⟨on, fun mask member => ?_, by simp [word]⟩
    by_contra set
    exact punctual ⟨word, mask, member, by simpa using set⟩
  | some err =>
    cases set : err.testBit bit.val with
    | true => exact .due err word set
    | false =>
      refine .armed (by simp [Unread]) ⟨on, fun mask member => ?_, fun other same => ?_⟩
      · rwa [matched mask err member word]
      · obtain rfl : err = other := Option.some.inj (word.symm.trans same)
        exact set

theorem run_stands (polls : Nat) {bit : Fin 3} {s : Sys rxDepth txDepth Bool}
    (base : List (Obs rxDepth txDepth Bool)) (later : List (Event Bool))
    (sole : ∀ event ∈ later, SoleClearer event) (dutiful : Dutiful s)
    (stands : ∃ post, s.trace = base ++ post ∧ Timely bit post ∧ Standing bit s post) :
    ∃ post, (run (step (consolePump polls)) s later).trace = base ++ post ∧
      Timely bit post ∧ Standing bit (run (step (consolePump polls)) s later) post := by
  refine (run_invariant (fun s => Dutiful s ∧ ∃ post, s.trace = base ++ post ∧
    Timely bit post ∧ Standing bit s post) SoleClearer ?_ later sole s ⟨dutiful, stands⟩).2
  rintro s event clearer ⟨dutiful, post, since, timely, standing⟩
  have move := step_moves (consolePump polls) s event
  exact ⟨dutiful.step move, standing.step clearer move dutiful.conforms since timely⟩

/-- In every run of the loop, with clears delivered or lost: a fault is named on standard
error by the end of the first iteration that reads `console_err` after it, unless a clear
of its bit, already reported, is still under way in its cycle. Standard output only ever
carries drained bytes. -/
theorem faults_reported (polls : Nat) (first : State rxDepth txDepth) (before : List (Event Bool))
    (env : Cycle) (lands : Bool) (later : List (Event Bool)) :
    let s := pumped polls first before
    let t := pumped polls first (before ++ [.cycle env lands])
    let final := pumped polls first (before ++ .cycle env lands :: later)
    (∀ bit, s.bridge.errSource (wires s.flight env lands).1 bit = true → ¬ LateClear t bit →
      (∀ event ∈ later, SoleClearer event) →
      ∃ post, final.trace = t.trace ++ post ∧ Timely bit post) ∧
    ∀ earlier item rest,
      operations final.trace = earlier ++ .write .stdout item :: rest →
      item = .bytes (reports.after .none earlier).undelivered := by
  intro s t final
  constructor
  · intro bit fault punctual sole
    have stepped : t = step (consolePump polls) s (.cycle env lands) := run_concat _ _ _ _
    have dutiful : Dutiful t := pumped_dutiful polls first _
    have on : t.bridge.sticky bit = true := by
      rw [stepped]
      exact (StickyErrors.step_sticky _ _ bit).trans (by simp [fault])
    have reached : final = run (step (consolePump polls)) t later := by
      rw [stepped]
      exact run_append _ _ before (.cycle env lands :: later)
    obtain ⟨post, since, timely, -⟩ := run_stands polls t.trace later sole dutiful
      ⟨[], by simp, by simp [Timely], fault_stands dutiful.matched on punctual⟩
    exact ⟨post, by rw [reached, since], timely⟩
  · intro earlier item rest split
    exact (pumped_dutiful polls first _).conforms.allowed earlier _ rest split

def overflow : Cycle := { quiet with phySource := some 0x55 }

/-- Bytes arrive until one is lost, and an iteration reads the bit, sends the clear and
prints its report. -/
def firstReport : List (Event Bool) :=
  [.cycle overflow false, .cycle overflow false, .cycle overflow false, .cycle overflow false,
   .calls false, .host [], .host [], .host []]

/-- The clear arrives, the iteration drains three bytes and ends, and another one finds
nothing. -/
def afterwards : List (Event Bool) :=
  [.cycle quiet true, .host [], .host [], .cycle quiet true, .cycle quiet false, .host [],
   .host [], .cycle quiet true, .cycle quiet false, .host [], .host [], .cycle quiet true,
   .cycle quiet false, .host [], .host [], .returns, .calls false, .host [], .host [], .returns]

/-- The observations after the cycle that lost the first byte. -/
def sinceFault : List (Obs 2 2 Bool) :=
  (pumped 1 powerOn (firstReport ++ afterwards)).trace.drop 4

theorem faults_reported_first : Timely 0 sinceFault ∧ Reported 0 sinceFault := by
  have sole : ∀ event ∈ firstReport.drop 4 ++ afterwards, SoleClearer event := by
    simp [firstReport, afterwards, SoleClearer, quiet]
  have landed : (pumped 1 (powerOn : State 2 2)
      (firstReport.take 3 ++ [.cycle overflow false])).flight = [] := by decide +kernel
  have punctual : ¬ LateClear (pumped 1 (powerOn : State 2 2)
      (firstReport.take 3 ++ [.cycle overflow false])) 0 := by
    rintro ⟨-, mask, member, -⟩
    simp [landed] at member
  obtain ⟨post, since, timely⟩ := (faults_reported 1 (powerOn : State 2 2) (firstReport.take 3)
    overflow false (firstReport.drop 4 ++ afterwards)).1 0 (by decide +kernel) punctual sole
  obtain rfl : sinceFault = post := congrArg (List.drop 4) since
  refine ⟨timely, ?_⟩
  obtain ⟨line, names, member⟩ := timely (sinceFault.take 1) (.word 1)
    ((sinceFault.drop 2).take 17) true (sinceFault.drop 20) rfl
  refine ⟨line, names, ?_⟩
  rcases List.mem_append.mp member with early | late
  · exact List.mem_of_mem_take early
  · exact List.mem_of_mem_drop (List.mem_of_mem_take late)

/-- The observations after the cycle that lost a byte while the clear was under way. -/
def sinceLateFault : List (Obs 2 2 Bool) :=
  (pumped 1 powerOn (firstReport ++ .cycle overflow false :: afterwards)).trace.drop 9

def prints : Obs rxDepth txDepth Bool → Bool
  | .op (.write .stderr _) => true
  | _ => false

theorem pumped_trace_extends (polls : Nat) (first : State rxDepth txDepth)
    (before later : List (Event Bool)) :
    (pumped polls first before).trace <+: (pumped polls first (before ++ later)).trace := by
  have reached : pumped polls first (before ++ later) =
      run (step (consolePump polls)) (pumped polls first before) later := run_append ..
  rw [reached]
  refine run_invariant
    (fun s : Sys rxDepth txDepth Bool => (pumped polls first before).trace <+: s.trace)
    (fun _ => True) (fun s event _ earlier => ?_) later (fun _ _ => trivial) _ List.prefix_rfl
  exact earlier.trans (step_moves (consolePump polls) s event).trace_extends

/-- A byte is lost between the report of an iteration and the arrival of its clear: the
clear takes the new fault with it and the next iteration reports nothing. -/
theorem fault_lost_to_late_clear :
    (pumped 1 (powerOn : State 2 2) firstReport).bridge.errSource
      (wires (pumped 1 (powerOn : State 2 2) firstReport).flight overflow false).1 0 = true ∧
    (pumped 1 powerOn (firstReport ++ .cycle overflow false :: afterwards)).trace =
      (pumped 1 powerOn (firstReport ++ [.cycle overflow false])).trace ++ sinceLateFault ∧
    ¬ Timely 0 sinceLateFault := by
  have split : (pumped 1 powerOn (firstReport ++ .cycle overflow false :: afterwards)).trace =
      (pumped 1 powerOn (firstReport ++ [.cycle overflow false])).trace ++ sinceLateFault := by
    have before : (pumped 1 (powerOn : State 2 2)
        (firstReport ++ [.cycle overflow false])).trace.length = 9 := by decide +kernel
    obtain ⟨post, more⟩ := pumped_trace_extends 1 (powerOn : State 2 2)
      (firstReport ++ [.cycle overflow false]) afterwards
    rw [List.append_assoc, List.singleton_append] at more
    rw [sinceLateFault, ← more, ← before, List.drop_left]
  refine ⟨by decide +kernel, split, fun timely => ?_⟩
  have silent : (sinceLateFault.take 17 ++ (sinceLateFault.drop 18).take 1).all
      (fun obs => !prints obs) = true := by decide +kernel
  obtain ⟨line, -, member⟩ := timely (sinceLateFault.take 17) (.word 0)
    ((sinceLateFault.drop 18).take 1) true [] rfl
  simpa [prints] using List.all_eq_true.mp silent _ member

end Remote8008.Guarantees.FaultReports
