import Remote8008.Source.BoardConnect

/-!
# Runs of the host programs

The programs of discovery.py and board.py against a system with a state of its own. What
a lookup does to that state is listed once, call by call, and what `Board.connect` makes
of its attempts is said for any attempt.
-/

namespace Remote8008.System.HostRuns
open Lib.Interaction Source.Discovery Source.BoardConnect

/-! ## The identifier check under a monitor that ignores its calls -/

section
variable {γ : Type} {m : Monitor Call Reply γ} {attempt : Nat}

theorem identifierLoop_keeps (reads : ∀ index, Keeps m (call (.readWord attempt index)))
    (left index : Nat) (chars : String) : Keeps m (identifierLoop attempt left index chars) := by
  induction left generalizing index chars with
  | zero => exact .pure _
  | succ left ih =>
    refine .bind (reads index) fun word => ?_
    cases word with
    | none => exact .pure _
    | some char => exact ih _ _

theorem identifier_keeps (base : Keeps m (call (.identifierMem attempt)))
    (reads : ∀ index, Keeps m (call (.readWord attempt index))) :
    Keeps m (identifier attempt) := by
  refine .bind base fun found => ?_
  cases found with
  | none => exact .pure _
  | some base => exact identifierLoop_keeps reads 256 0 ""

theorem sanityCheck_keeps
    (warns : ∀ actual expected, Keeps m (call (.printWarning actual expected)))
    (expected : Option String) (actual : String) : Keeps m (sanityCheck expected actual) := by
  cases expected with
  | none => exact .pure _
  | some expected =>
    simp only [sanityCheck]
    split
    · exact .bind (warns actual expected) fun _ => .pure _
    · exact .pure _

end

/-! ## Single calls -/

section
variable {σ α : Type} {answer : σ → Call → Reply × σ} {note : σ → Call → Reply → σ} {s s' : σ}

theorem runWith_call {c : Call} {result : Option String}
    (answered : answer s c = (.value result, s')) :
    Raising.runWith answer note (call c) s = (.ok result, s') := by
  simp [Raising.runWith, call, Prog.runWith, answered]

theorem runWith_call_raised {c : Call} {e : Exn} (answered : answer s c = (.raised e, s')) :
    Raising.runWith answer note (call c) s = (.error e, s') := by
  simp [Raising.runWith, call, Prog.runWith, answered]

variable (answer note) in
theorem runWith_call_state (c : Call) (s : σ) :
    ∃ result, Raising.runWith answer note (call c) s = (result, (answer s c).2) := by
  cases reply : (answer s c).1 with
  | value result => exact ⟨_, runWith_call (Prod.ext reply rfl)⟩
  | raised e => exact ⟨_, runWith_call_raised (Prod.ext reply rfl)⟩

/-! ## The cache file -/

theorem runWith_loadCache_present {text : String}
    (read : answer s .readCache = (.value (some text), s')) :
    Raising.runWith answer note loadCache s = (.ok (truthy (some (strip text))), s') :=
  Raising.runWith_tryCatch_ok (Raising.runWith_bind_ok (runWith_call read))

theorem runWith_loadCache_absent (missing : answer s .readCache = (.raised .fileNotFound, s')) :
    Raising.runWith answer note loadCache s = (.ok none, s') :=
  Raising.runWith_tryCatch_error (Raising.runWith_bind_error (runWith_call_raised missing))

theorem runWith_clearCache_present {result : Option String}
    (removed : answer s .removeCache = (.value result, s')) :
    Raising.runWith answer note clearCache s = (.ok (), s') :=
  Raising.runWith_tryCatch_ok (Raising.runWith_bind_ok (runWith_call removed))

theorem runWith_clearCache_absent (missing : answer s .removeCache = (.raised .fileNotFound, s')) :
    Raising.runWith answer note clearCache s = (.ok (), s') :=
  Raising.runWith_tryCatch_error (Raising.runWith_bind_error (runWith_call_raised missing))

/-! ## Lookups -/

/-- The questions a lookup asks after the broadcast. -/
inductive Asks : Call → Prop
  | name (name : String) : Asks (.gethostbyname name)
  | address : Asks .localIpv4
  | sweep (ip : String) : Asks (.probeSweep ip)

/-- The states that such questions lead to. -/
inductive Asked (answer : σ → Call → Reply × σ) (s : σ) : σ → Prop
  | start : Asked answer s s
  | ask {s' : σ} {c : Call} (asked : Asked answer s s') (asks : Asks c) :
      Asked answer s (answer s' c).2

variable (note) in
theorem asked_resolveDns (names : List String) (asked : Asked answer s s') :
    ∃ result s'', Raising.runWith answer note (resolveDns names) s' = (result, s'') ∧
      Asked answer s s'' := by
  induction names generalizing s' with
  | nil => exact ⟨_, s', rfl, asked⟩
  | cons name names ih =>
    obtain ⟨result, answered⟩ := runWith_call_state answer note (.gethostbyname name) s'
    have next := asked.ask (.name name)
    cases result with
    | ok found => exact ⟨_, _, Raising.runWith_tryCatch_ok answered, next⟩
    | error e =>
      rw [resolveDns, Raising.runWith_tryCatch_error answered]
      split
      · exact ih next
      · exact ⟨_, _, rfl, next⟩

/-- How a lookup can end. A host that was found is in the cache file by then; only a sweep
that finds the empty string returns it without saving it. -/
inductive LookedUp (answer : σ → Call → Reply × σ) (s : σ) : Except Exn (Option String) × σ → Prop
  | found {s' : σ} {host : String} (asked : Asked answer (answer s .probeBroadcast).2 s')
      (named : host ≠ "") :
      LookedUp answer s (.ok (some host), (answer s' (.writeCache (strip host ++ "\n"))).2)
  | nothing {s' : σ} (asked : Asked answer (answer s .probeBroadcast).2 s') :
      LookedUp answer s (.ok none, s')
  | raised {s' : σ} {e : Exn} (asked : Asked answer (answer s .probeBroadcast).2 s') :
      LookedUp answer s (.error e, s')
  | blank {s' : σ} {ip : String} (asked : Asked answer (answer s .probeBroadcast).2 s')
      (swept : (answer s' (.probeSweep ip)).1 = .value (some "")) :
      LookedUp answer s (.ok (some ""), (answer s' (.probeSweep ip)).2)

theorem truthy_eq_some {result : Option String} {host : String}
    (found : truthy result = some host) : result = some host ∧ host ≠ "" := by
  simpa [truthy, Option.filter_eq_some_iff] using found

theorem truthy_eq_none {result : Option String} (nothing : truthy result = none) :
    result = none ∨ result = some "" := by
  cases result with
  | none => exact .inl rfl
  | some host => exact .inr (by simpa [truthy] using nothing)

section
variable (saves : ∀ s text, ∃ result, (answer s (.writeCache text)).1 = .value result)
include saves

theorem runWith_saveCache (host : String) (s : σ) :
    Raising.runWith answer note (saveCache host) s =
      (.ok (), (answer s (.writeCache (strip host ++ "\n"))).2) := by
  obtain ⟨result, written⟩ := saves s (strip host ++ "\n")
  exact Raising.runWith_bind_ok (runWith_call (Prod.ext written rfl))

theorem lookedUp_sweep (asked : Asked answer (answer s .probeBroadcast).2 s') :
    LookedUp answer s (Raising.runWith answer note sweep s') := by
  -- the address of this machine, or none
  obtain ⟨ip, answered⟩ : ∃ ip, Raising.runWith answer note (tryCatch (call .localIpv4) fun e =>
      if e.isOSError then pure none else throw e) s' = (ip, (answer s' .localIpv4).2) := by
    obtain ⟨result, answered⟩ := runWith_call_state answer note .localIpv4 s'
    cases result with
    | ok ip => exact ⟨_, Raising.runWith_tryCatch_ok answered⟩
    | error e =>
      rw [Raising.runWith_tryCatch_error answered]
      split
      · exact ⟨_, rfl⟩
      · exact ⟨_, rfl⟩
  have located := asked.ask .address
  rcases ip with e | _ | ip
  · rw [sweep, Raising.runWith_bind_error answered]
    exact .raised located
  · rw [sweep, Raising.runWith_bind_ok answered]
    exact .nothing located
  · rw [sweep, Raising.runWith_bind_ok answered]
    generalize (answer s' .localIpv4).2 = s₁ at located
    have swept := located.ask (.sweep ip)
    cases reply : (answer s₁ (.probeSweep ip)).1 with
    | raised e =>
      simp only
      rw [Raising.runWith_bind_error (runWith_call_raised (Prod.ext reply rfl))]
      exact .raised swept
    | value result =>
      simp only
      rw [Raising.runWith_bind_ok (runWith_call (Prod.ext reply rfl))]
      cases found : truthy result with
      | some host =>
        obtain ⟨rfl, named⟩ := truthy_eq_some found
        simp only
        rw [Raising.runWith_bind_ok (runWith_saveCache saves host _)]
        exact .found swept named
      | none =>
        rcases truthy_eq_none found with rfl | rfl
        · exact .nothing swept
        · exact .blank located reply

theorem lookedUp (s : σ) : LookedUp answer s (Raising.runWith answer note lookUp s) := by
  have saved : ∀ (s' : σ) (host : String), Asked answer (answer s .probeBroadcast).2 s' →
      host ≠ "" →
      LookedUp answer s (Raising.runWith answer note (do saveCache host; pure (some host)) s') := by
    intro s' host asked named
    rw [Raising.runWith_bind_ok (runWith_saveCache saves host s')]
    exact .found asked named
  obtain ⟨result, probed⟩ := runWith_call_state answer note .probeBroadcast s
  rcases result with e | result
  · rw [lookUp, Raising.runWith_bind_error probed]
    exact .raised .start
  rw [lookUp, Raising.runWith_bind_ok probed]
  cases found : truthy result with
  | some host => exact saved _ host .start (truthy_eq_some found).2
  | none =>
    obtain ⟨result, s₁, resolved, asked⟩ := asked_resolveDns note dnsNames
      (.start : Asked answer (answer s .probeBroadcast).2 _)
    simp only
    rcases result with e | result
    · rw [Raising.runWith_bind_error resolved]
      exact .raised asked
    rw [Raising.runWith_bind_ok resolved]
    cases named : truthy result with
    | some host => exact saved s₁ host asked (truthy_eq_some named).2
    | none => exact lookedUp_sweep saves asked

end

/-! ## Attempts -/

variable {attempt : Nat → String → Py α} {asked : Option String} {useCache : Bool} {host : String}
  {s₀ : σ} {found : Except Exn (Option String)}

theorem runWith_resolveHost_hit
    (consulted : Raising.runWith answer note (if useCache then loadCache else pure none) s =
      (.ok (some host), s')) :
    Raising.runWith answer note (resolveHost none useCache) s = (.ok (host, true), s') := by
  rw [resolveHost, Raising.runWith_bind_ok consulted]
  rfl

section
variable (consulted : Raising.runWith answer note (if useCache then loadCache else pure none) s =
  (.ok none, s₀))
include consulted

theorem runWith_resolveHost_found
    (looked : Raising.runWith answer note lookUp s₀ = (.ok (some host), s')) :
    Raising.runWith answer note (resolveHost none useCache) s = (.ok (host, false), s') := by
  have discovered :
      Raising.runWith answer note (discover false) s₀ = (.ok (some host), s') := looked
  rw [resolveHost, Raising.runWith_bind_ok consulted]
  simp only
  rw [Raising.runWith_bind_ok discovered]
  rfl

theorem runWith_resolveHost_lost (looked : Raising.runWith answer note lookUp s₀ = (found, s'))
    (lost : ∀ host, found ≠ .ok (some host)) :
    ∃ e, Raising.runWith answer note (resolveHost none useCache) s = (.error e, s') := by
  have discovered : Raising.runWith answer note (discover false) s₀ = (found, s') := looked
  rw [resolveHost, Raising.runWith_bind_ok consulted]
  simp only
  rcases found with e | _ | host
  · exact ⟨e, Raising.runWith_bind_error discovered⟩
  · exact ⟨_, Raising.runWith_bind_ok discovered⟩
  · exact absurd rfl (lost host)

end

section
variable (cleared : Raising.runWith answer note clearCache s = (.ok (), s₀))
include cleared

theorem runWith_retryFresh_found (e : Exn)
    (looked : Raising.runWith answer note lookUp s₀ = (.ok (some host), s')) :
    Raising.runWith answer note (retryFresh attempt e) s =
      Raising.runWith answer note (attempt 1 host) s' := by
  have discovered :
      Raising.runWith answer note (discover false) s₀ = (.ok (some host), s') := looked
  rw [retryFresh, Raising.runWith_bind_ok cleared, Raising.runWith_bind_ok discovered]

theorem runWith_retryFresh_lost (e : Exn)
    (looked : Raising.runWith answer note lookUp s₀ = (found, s'))
    (lost : ∀ host, found ≠ .ok (some host)) :
    ∃ e', Raising.runWith answer note (retryFresh attempt e) s = (.error e', s') := by
  have discovered : Raising.runWith answer note (discover false) s₀ = (found, s') := looked
  rw [retryFresh, Raising.runWith_bind_ok cleared]
  rcases found with e' | _ | host
  · exact ⟨e', Raising.runWith_bind_error discovered⟩
  · exact ⟨e, Raising.runWith_bind_ok discovered⟩
  · exact absurd rfl (lost host)

end

/-- A host that did not come from the cache gets one attempt. -/
theorem runWith_connect_once
    (resolved : Raising.runWith answer note (resolveHost asked useCache) s₀ =
      (.ok (host, false), s)) :
    Raising.runWith answer note (connect attempt asked useCache) s₀ =
      Raising.runWith answer note (attempt 0 host) s := by
  rw [connect, Raising.runWith_bind_ok resolved]
  cases tried : Raising.runWith answer note (attempt 0 host) s with
  | mk result s' =>
    cases result with
    | ok board => exact Raising.runWith_tryCatch_ok tried
    | error e =>
      refine (Raising.runWith_tryCatch_error tried).trans ?_
      simp

/-- A cached host that fails for anything but being in use is dropped and looked up again. -/
theorem runWith_connect_stale {e : Exn}
    (resolved : Raising.runWith answer note (resolveHost asked useCache) s₀ =
      (.ok (host, true), s))
    (failed : Raising.runWith answer note (attempt 0 host) s = (.error e, s'))
    (free : e ≠ .boardBusy) :
    Raising.runWith answer note (connect attempt asked useCache) s₀ =
      Raising.runWith answer note (retryFresh attempt e) s' := by
  rw [connect, Raising.runWith_bind_ok resolved]
  refine (Raising.runWith_tryCatch_error failed).trans ?_
  simp [free]

/-- Otherwise its one attempt is final. -/
theorem runWith_connect_settled {result : Except Exn α}
    (resolved : Raising.runWith answer note (resolveHost asked useCache) s₀ =
      (.ok (host, true), s))
    (tried : Raising.runWith answer note (attempt 0 host) s = (result, s'))
    (settled : ∀ e, result = .error e → e = .boardBusy) :
    Raising.runWith answer note (connect attempt asked useCache) s₀ = (result, s') := by
  rw [connect, Raising.runWith_bind_ok resolved]
  cases result with
  | ok board => exact Raising.runWith_tryCatch_ok tried
  | error e =>
    obtain rfl := settled e rfl
    exact Raising.runWith_tryCatch_error tried

end

end Remote8008.System.HostRuns
