import Storyline.Proofs.Creations
import Storyline.Proofs.Ladder

/-!
# Races for one slug

Creations that ask for one slug in one scope get in each other's way: a variant may be taken between
the lookup that proposes it and the insert. Each refusal of a variant is paid for by another
creation that has stored one since, so as many retries as there are creations are enough.

* `Registry.NoNext`: why there is no next variant;
* `Registry.Spares`: programs that store nothing in a scope;
* `Registry.Running`: a creation that has not stored anything, with the count of its attempts;
  `Registry.Running.turn`: its next call;
* `Registry.Race`: what holds of creations that ask for one slug, with `Registry.creations_race`.
-/

namespace Storyline

theorem Slug.Fault.message_tooLong_ne (length : Nat) (slug : String) :
    (tooLong length).message ≠ (malformed slug).message := by
  obtain ⟨long, hlong⟩ : ∃ rest, (tooLong length).message =
      "slug exceeds maximum length of " ++ rest := by
    refine ⟨toString Slug.maxBytes ++ (" characters (got " ++ (toString length ++ ")")), ?_⟩
    change "slug exceeds maximum length of " ++ toString Slug.maxBytes ++ " characters (got " ++
      toString length ++ ")" = _
    simp only [String.append_assoc]
  obtain ⟨form, hform⟩ : ∃ rest, (malformed slug).message = "slug '" ++ rest :=
    ⟨slug ++ "' must contain only lowercase letters, digits and single hyphens",
      String.append_assoc ..⟩
  intro h
  -- the sixth character tells them apart
  have hchars := congrArg (fun s : String => s.toList[5]?) h
  simp only [hlong, hform, String.toList_append] at hchars
  rw [List.getElem?_append_left (by decide), List.getElem?_append_left (by decide)] at hchars
  exact absurd hchars (by decide)

namespace Registry

open Slug

variable {base : String} {scope : Scope} {order : VariantOrder} {r : Registry}

/-- Why there is no next variant of a slug, where `slugs` are those of its scope. The variant that
is wanted has the number after the largest one at some time. -/
inductive NoNext (base : String) (slugs : List String) : Error → Prop
  /-- The number of a stored variant is too large. -/
  | oversized {slug : String} {ds : List Char} (hslug : slug ∈ slugs)
      (hd : suffix? base slug = some ds) (h : maxNumber < suffixValue ds) :
      NoNext base slugs (.unreadableSuffix slug .tooLarge)
  /-- A stored variant has the last number. -/
  | usedUp {slug : String} {ds : List Char} (hslug : slug ∈ slugs)
      (hd : suffix? base slug = some ds) (h : suffixValue ds = maxNumber) :
      NoNext base slugs (.internal s!"slug iteration overflow for '{slug}'")
  /-- The variant of a slug is too long. -/
  | tooLong {n : UInt32} (hn : 0 < n.toNat ∧ n.toNat ≤ topNumber base slugs + 1)
      (hbase : Slug.check base = .ok ()) (h : maxBytes < (variant base n).utf8ByteSize) :
      NoNext base slugs (.invalid (Fault.tooLong (variant base n).utf8ByteSize).message)
  /-- The base is no slug, and its variant is none either. -/
  | unfit {n : UInt32} {fault : Fault} (hn : 0 < n.toNat ∧ n.toNat ≤ topNumber base slugs + 1)
      (hbase : Slug.check base ≠ .ok ()) (h : Slug.check (variant base n) = .error fault) :
      NoNext base slugs (.invalid fault.message)

variable {slugs slugs' : List String} {cause : Error}

theorem NoNext.kind_ne (h : NoNext base slugs cause) : cause.kind ≠ .slugTaken := by
  cases h <;> simp [Error.kind]

theorem NoNext.mono (h : NoNext base slugs cause) (hsub : slugs ⊆ slugs') :
    NoNext base slugs' cause := by
  have htop : topNumber base slugs ≤ topNumber base slugs' := topNumber_mono hsub
  cases h with
  | oversized hslug hd h => exact .oversized (hsub hslug) hd h
  | usedUp hslug hd h => exact .usedUp (hsub hslug) hd h
  | tooLong hn hbase h => exact .tooLong ⟨hn.1, by omega⟩ hbase h
  | unfit hn hbase h => exact .unfit ⟨hn.1, by omega⟩ hbase h

theorem NoNext.of_check {n : UInt32} {fault : Fault} (hn : n.toNat = topNumber base slugs + 1)
    (hcheck : Slug.check (variant base n) = .error fault) :
    NoNext base slugs (.invalid fault.message) := by
  by_cases hbase : Slug.check base = .ok ()
  · rw [variant_eq] at hcheck
    obtain ⟨rfl, hlong⟩ := check_dashed_error hbase (Numeral.write_ne_nil _)
      (fun _ => Numeral.isDigit_of_mem_write) hcheck
    rw [← variant_eq] at hlong ⊢
    exact .tooLong (by omega) hbase hlong
  · exact .unfit (by omega) hbase hcheck

theorem noNext_of_reveals {latest : Option String}
    (h : Reveals base (topNumber base slugs) latest) (hlatest : ∀ slug ∈ latest, slug ∈ slugs)
    (hnext : nextVariant base latest = .error cause) : NoNext base slugs cause := by
  unfold nextVariant at hnext
  cases h with
  | none htop =>
    have hone : (1 : UInt32).toNat = topNumber base slugs + 1 := by rw [htop]; rfl
    simp only [nextNumber] at hnext
    split at hnext
    · next hcheck =>
      cases hnext
      exact .of_check hone hcheck
    · cases hnext
  | @some slug ds hd h =>
    have hslug := hlatest slug rfl
    rw [nextNumber_variant hd] at hnext
    split_ifs at hnext with hlt heq
    · cases hnext
      exact .oversized hslug hd hlt
    · cases hnext
      exact .usedUp hslug hd heq
    · have htop : suffixValue ds = topNumber base slugs := h.resolve_right fun h => hlt h.1
      simp only at hnext
      split at hnext
      · next hcheck =>
        cases hnext
        exact .of_check (by rw [toNat_ofNat_of_le (by omega), htop]) hcheck
      · cases hnext

/-! ## Programs elsewhere -/

/-- The program stores nothing in the scope, whatever it is answered. -/
def Spares (scope : Scope) : Creation → Prop
  | .done _ => True
  | .ask c k => (∀ e : Entry, c = .insert e → e.scope ≠ scope) ∧ ∀ answer, Spares scope (k answer)

theorem Spares.turn {c : CandidateCall Entry} {k : CandidateCall.Answer Entity c → Creation}
    (h : Spares scope (.ask c k)) (hr : r.Reliable) :
    slugsOf (handle c r).2.rows scope = slugsOf r.rows scope ∧ Spares scope (k (handle c r).1) := by
  refine ⟨?_, h.2 _⟩
  cases c with
  | insert e =>
    by_cases he : e ∈ r.rows
    · rw [handle_insert_taken hr he]
    · rw [handle_insert_free hr he]
      exact slugsOf_append_of_ne (h.1 e rfl) r.rows
  | latest base scope' order => rw [handle_latest hr]

theorem spares_create {e : Entry} (he : e.scope ≠ scope) (policy : RetryPolicy) :
    Spares scope (create policy e) := by
  have hattempt : ∀ retries attempt slug,
      Spares scope (attemptFrom e.slug e.scope policy.order retries attempt (⟨slug, e.scope⟩ :
        Entry)) := by
    intro retries
    induction retries with
    | zero =>
      intro attempt slug
      rw [attemptFrom_eq]
      refine ⟨fun e' he' => by cases he'; exact he, fun answer => ?_⟩
      cases answer <;> trivial
    | succ retries ih =>
      intro attempt slug
      rw [attemptFrom_eq]
      refine ⟨fun e' he' => by cases he'; exact he, fun answer => ?_⟩
      cases answer with
      | ok entity => trivial
      | error cause =>
        simp only [afterInsert]
        split
        · refine ⟨fun e' he' => ?_, fun latest => ?_⟩
          · cases he'
          simp only [afterLookup]
          split
          · trivial
          · split
            · trivial
            · exact ih _ _
        · trivial
  exact hattempt _ _ e.slug

/-! ## A creation in a race -/

/-- A creation in a race that has not stored anything. The slugs of the scope are `slugs`, `won`
creations have stored one of them, and `bound` retries are allowed. -/
inductive Running (base : String) (scope : Scope) (order : VariantOrder) (bound : Nat)
    (slugs : List String) (won : Nat) : Creation → Prop
  /-- It wants the base, or the variant after the largest number of an earlier time. -/
  | inserting {retries : Nat} {attempt : UInt32} {k : Nat}
      (hcount : attempt.toNat + retries = bound + 1) (hk : k ≤ topNumber base slugs + 1)
      (hpast : 0 < k → k ≤ topNumber base slugs → rung base k ∈ slugs)
      (hfree : attempt.toNat ≤ won + 2) (htaken : rung base k ∈ slugs → attempt.toNat ≤ won + 1) :
      Running base scope order bound slugs won
        (attemptFrom base scope order retries attempt (⟨rung base k, scope⟩ : Entry))
  /-- It has been refused. -/
  | lookingUp {retries : Nat} {attempt : UInt32} (slug : String)
      (hcount : attempt.toNat + retries = bound) (hpaid : attempt.toNat ≤ won + 1) :
      Running base scope order bound slugs won
        (.ask (.latest base scope order)
          (afterLookup base scope order retries attempt (⟨slug, scope⟩ : Entry)))
  | failed {cause : Error} (h : NoNext base slugs cause) :
      Running base scope order bound slugs won (.done (.error (.resolve base cause)))
  | uncounted (h : UInt32.size ≤ won + 2) :
      Running base scope order bound slugs won (.done (.error (.uncounted base)))

section Running

variable {bound won : Nat} {slugs : List String} {x : Creation}

theorem Running.entity? (h : Running base scope order bound slugs won x) : x.entity? = none := by
  cases h with
  | inserting => rw [attemptFrom_eq]; rfl
  | lookingUp => rfl
  | failed => rfl
  | uncounted => rfl

/-- Another creation has won: it has stored the base, or the variant after the largest number. -/
theorem Running.overtaken (h : Running base scope order bound slugs won x) {j : Nat}
    (hj : j = 0 ∨ j = topNumber base slugs + 1) :
    Running base scope order bound (slugs ++ [rung base j]) (won + 1) x := by
  cases h with
  | @inserting retries attempt k hcount hk hpast hfree htaken =>
    have htop := topNumber_append_rung base slugs j
    refine .inserting hcount (by omega) (fun hpos hle => ?_) (by omega) fun _ => by omega
    -- a number up to the largest is there already, unless it is the one that has just been stored
    by_cases hold : k ≤ topNumber base slugs
    · exact List.mem_append_left _ (hpast hpos hold)
    · have : k = j := by omega
      rw [this]
      exact List.mem_append_right _ List.mem_cons_self
  | lookingUp slug hcount hpaid => exact .lookingUp slug hcount (by omega)
  | failed h => exact .failed (h.mono (List.subset_append_left _ _))
  | uncounted h => exact .uncounted (by omega)

/-- **The next call of a creation in a race** either leaves the rows as they are, or stores the base
or the variant after the largest number. It never ends with a refusal, for it has been refused at
most once more often than others have won. -/
theorem Running.turn {c : CandidateCall Entry} {k : CandidateCall.Answer Entity c → Creation}
    (h : Running base scope order bound (slugsOf r.rows scope) won (.ask c k)) (hr : r.Reliable)
    (hreveals : Reveals base (topNumber base (slugsOf r.rows scope))
      (latest? r.rows base scope order))
    (hbound : won < bound) :
    ((handle c r).2.rows = r.rows ∧
      Running base scope order bound (slugsOf r.rows scope) won (k (handle c r).1)) ∨
      ∃ j, (j = 0 ∨ j = topNumber base (slugsOf r.rows scope) + 1) ∧
        (handle c r).2.rows = r.rows ++ [⟨rung base j, scope⟩] ∧
          (k (handle c r).1).entity?.isSome := by
  generalize hx : (Prog.ask c k : Creation) = x at h
  cases h with
  | @inserting retries attempt j hcount hk hpast hfree htaken =>
    rw [attemptFrom_eq] at hx
    cases hx
    have hmem : rung base j ∈ slugsOf r.rows scope ↔ (⟨rung base j, scope⟩ : Entry) ∈ r.rows :=
      mem_slugsOf (e := ⟨rung base j, scope⟩)
    by_cases he : (⟨rung base j, scope⟩ : Entry) ∈ r.rows
    · rw [handle_insert_taken hr he]
      have hpaid := htaken (hmem.mpr he)
      obtain ⟨retries, rfl⟩ := Nat.exists_eq_add_of_le' (show 1 ≤ retries by omega)
      exact .inl ⟨rfl, .lookingUp _ (by omega) hpaid⟩
    · rw [handle_insert_free hr he]
      refine .inr ⟨j, ?_, rfl, rfl⟩
      by_contra hj
      exact he (hmem.mp (hpast (by omega) (by omega)))
  | @lookingUp retries attempt slug hcount hpaid =>
    cases hx
    rw [handle_latest hr]
    refine .inl ⟨rfl, ?_⟩
    simp only [afterLookup, Except.bind]
    cases hn : nextVariant base (latest? r.rows base scope order) with
    | error cause =>
      exact .failed (noNext_of_reveals hreveals (fun _ h => (suffix?_of_latest? h).1) hn)
    | ok next =>
      obtain ⟨-, -, hslug⟩ := hreveals.nextVariant_ok hn
      simp only [hslug]
      split
      · exact .uncounted (by omega)
      · next hsize =>
        -- nobody has the variant yet, so its refusal would be paid for by one more winner
        have hfresh := rung_top_not_mem base (slugsOf r.rows scope)
        have hsucc : (attempt + 1).toNat = attempt.toNat + 1 :=
          toNat_succ_attempt (Nat.lt_of_le_of_ne (Nat.succ_le_of_lt attempt.toNat_lt) hsize)
        exact .inserting (by omega) (Nat.le_refl _) (fun _ h => absurd h (by omega)) (by omega)
          fun h => absurd h hfresh
  | failed h => cases hx
  | uncounted h => cases hx

end Running

/-! ## Creations that ask for one slug -/

section Race

variable {ι : Type} [Fintype ι] [DecidableEq ι] {racers : Finset ι} {policy : ι → RetryPolicy}
  {p : Creations ι} {i : ι} {x : Creation} {s : Registry}

/-- The racers that have ended with an entity. -/
def winners (racers : Finset ι) (p : Creations ι) : Finset ι := racers ∩ ended p

/-- What holds of creations of which the racers ask for `base` in `scope` and the others do not
store anything there. -/
structure Race (racers : Finset ι) (policy : ι → RetryPolicy) (base : String) (scope : Scope)
    (p : Creations ι) : Prop where
  reliable : p.store.Reliable
  /-- Lookups by age need numbers that do not fall. -/
  rising : (∀ i ∈ racers, (policy i).order = .highest) ∨
    (numbers base (slugsOf p.store.rows scope)).Pairwise (· ≤ ·)
  others : ∀ i ∉ racers, Spares scope (p.progs i)
  running : ∀ i ∈ racers, (p.progs i).entity? = none →
    Running base scope (policy i).order (policy i).retries.toNat (slugsOf p.store.rows scope)
      (winners racers p).card (p.progs i)

theorem race_start (hr : p.store.Reliable)
    (hracers : ∀ i ∈ racers, p.progs i = create (policy i) (⟨base, scope⟩ : Entry))
    (hothers : ∀ i ∉ racers, Spares scope (p.progs i))
    (hrising : (∀ i ∈ racers, (policy i).order = .highest) ∨
      (numbers base (slugsOf p.store.rows scope)).Pairwise (· ≤ ·)) :
    Race racers policy base scope p := by
  refine ⟨hr, hrising, hothers, fun i hi _ => ?_⟩
  rw [hracers i hi]
  exact .inserting (Nat.add_comm _ _) (Nat.zero_le _) (fun h => absurd h (Nat.lt_irrefl 0))
    (Nat.le_add_left 1 _) fun _ => Nat.le_add_left 1 _

theorem Race.reveals (h : Race racers policy base scope p) (hi : i ∈ racers) :
    Reveals base (topNumber base (slugsOf p.store.rows scope))
      (latest? p.store.rows base scope (policy i).order) :=
  reveals_latest (h.rising.imp_left fun hall => hall i hi)

theorem winners_card_lt (hi : i ∈ racers) (hx : (p.progs i).entity? = none) :
    (winners racers p).card < racers.card := by
  refine Finset.card_lt_card (Finset.ssubset_iff_subset_ne.mpr ⟨Finset.inter_subset_left,
    fun h => ?_⟩)
  have hmem : i ∈ winners racers p := by rwa [h]
  simp [winners, mem_ended, hx] at hmem

theorem Race.quiet (h : Race racers policy base scope p) (hs : s.Reliable)
    (hslugs : slugsOf s.rows scope = slugsOf p.store.rows scope) (hspares : i ∉ racers →
    Spares scope x)
    (hrunning : i ∈ racers → (p.progs i).entity? = none ∧
      Running base scope (policy i).order (policy i).retries.toNat (slugsOf p.store.rows scope)
        (winners racers p).card x) :
    Race racers policy base scope ⟨Function.update p.progs i x, s⟩ := by
  have hwinners : winners racers ⟨Function.update p.progs i x, s⟩ = winners racers p := by
    ext j
    by_cases hj : j = i
    · subst hj
      by_cases hjr : j ∈ racers
      · simp [winners, mem_ended, (hrunning hjr).1, (hrunning hjr).2.entity?]
      · simp [winners, hjr]
    · simp [winners, mem_ended, hj]
  refine ⟨hs, ?_, fun j hj => ?_, fun j hj hx => ?_⟩
  · rw [hslugs]
    exact h.rising
  · by_cases hji : j = i
    · subst hji
      simpa only [Function.update_self] using hspares hj
    · simpa only [Function.update_of_ne hji] using h.others j hj
  · rw [hwinners]
    by_cases hji : j = i
    · subst hji
      simpa only [Function.update_self, hslugs] using (hrunning hj).2
    · simp only [Function.update_of_ne hji] at hx
      simpa only [Function.update_of_ne hji, hslugs] using h.running j hj hx

theorem Race.stored (h : Race racers policy base scope p) (hs : s.Reliable) (hi : i ∈ racers)
    (hnone : (p.progs i).entity? = none) {j : Nat}
    (hj : j = 0 ∨ j = topNumber base (slugsOf p.store.rows scope) + 1)
    (hrows : s.rows = p.store.rows ++ [⟨rung base j, scope⟩]) (hx : x.entity?.isSome) :
    Race racers policy base scope ⟨Function.update p.progs i x, s⟩ := by
  have hwinners : (winners racers ⟨Function.update p.progs i x, s⟩).card =
      (winners racers p).card + 1 := by
    rw [winners, ended_update_some hx, Finset.inter_insert_of_mem hi,
      Finset.card_insert_of_notMem (by simp [mem_ended, hnone]), winners]
  have hslugs : slugsOf s.rows scope = slugsOf p.store.rows scope ++ [rung base j] := by
    rw [hrows]
    exact slugsOf_append_self p.store.rows ⟨rung base j, scope⟩
  refine ⟨hs, ?_, fun k hk => ?_, fun k hk hk' => ?_⟩
  · refine h.rising.imp_right fun hrising => ?_
    rw [hslugs]
    exact pairwise_numbers_append_rung hrising (by omega)
  · have hki : k ≠ i := fun hki => hk (hki ▸ hi)
    simpa only [Function.update_of_ne hki] using h.others k hk
  · rw [hwinners, hslugs]
    by_cases hki : k = i
    · subst hki
      simp only [Function.update_self] at hk'
      rw [hk'] at hx
      cases hx
    · simp only [Function.update_of_ne hki] at hk' ⊢
      exact (h.running k hk hk').overtaken hj

/-- **Every turn keeps the race.** -/
theorem Race.step (henough : ∀ i ∈ racers, racers.card ≤ (policy i).retries.toNat)
    (h : Race racers policy base scope p) (i : ι) :
    Race racers policy base scope (p.step handle i) := by
  cases hp : p.progs i with
  | done a => rwa [Pool.step_done hp]
  | ask c k =>
    rw [Pool.step_ask hp]
    by_cases hi : i ∈ racers
    · have hnone : (p.progs i).entity? = none := by
        rw [hp]
        rfl
      have hrunning := h.running i hi hnone
      rw [hp] at hrunning
      have hroom : (winners racers p).card < (policy i).retries.toNat :=
        Nat.lt_of_lt_of_le (winners_card_lt hi hnone) (henough i hi)
      rcases hrunning.turn h.reliable (h.reveals hi) hroom with ⟨hrows, hx⟩ | ⟨j, hj, hrows, hx⟩
      · exact h.quiet (h.reliable.handle c) (by rw [hrows]) (fun hne => absurd hi hne) fun _ =>
          ⟨hnone, hx⟩
      · exact h.stored (h.reliable.handle c) hi hnone hj hrows hx
    · obtain ⟨hslugs, hx⟩ := Spares.turn (hp ▸ h.others i hi) h.reliable
      exact h.quiet (h.reliable.handle c) hslugs (fun _ => hx) fun hmem => absurd hmem hi

/-- **As many retries as there are racers are enough.** Creations ask for one slug in one scope, and
no other program stores anything there; they count on from the largest number, or by age from rows
whose numbers do not fall. Whatever the schedule, none of them ends with a taken slug. If there are
so few of them that all attempts can be counted, each ends with an entity, or there is no next
variant. -/
theorem creations_race (hr : p.store.Reliable)
    (hracers : ∀ i ∈ racers, p.progs i = create (policy i) (⟨base, scope⟩ : Entry))
    (hothers : ∀ i ∉ racers, Spares scope (p.progs i))
    (henough : ∀ i ∈ racers, racers.card ≤ (policy i).retries.toNat)
    (hrising : (∀ i ∈ racers, (policy i).order = .highest) ∨
      (numbers base (slugsOf p.store.rows scope)).Pairwise (· ≤ ·))
    (schedule : List ι) (hi : i ∈ racers) {result : Except CreationError Entity}
    (hresult : (p.run handle schedule).progs i = .done result) :
    (∀ e, result = .error e → e.cause.kind ≠ .slugTaken) ∧
      (racers.card < UInt32.size - 1 → (∃ entity, result = .ok entity) ∨
        ∃ cause, result = .error (.resolve base cause) ∧
          NoNext base (slugsOf (p.run handle schedule).store.rows scope) cause) := by
  have h : Race racers policy base scope (p.run handle schedule) :=
    Pool.run_induction (fun _ i h => h.step henough i) (race_start hr hracers hothers hrising)
      schedule
  cases result with
  | ok entity => exact ⟨fun e he => (nomatch he), fun _ => .inl ⟨entity, rfl⟩⟩
  | error e =>
    have hnone : ((p.run handle schedule).progs i).entity? = none := by
      rw [hresult]
      rfl
    have hrunning := h.running i hi hnone
    rw [hresult] at hrunning
    generalize hx : (Prog.done (.error e) : Creation) = x at hrunning
    cases hrunning with
    | inserting =>
      rw [attemptFrom_eq] at hx
      cases hx
    | lookingUp => cases hx
    | @failed cause hcause =>
      cases hx
      refine ⟨fun e he => ?_, fun _ => .inr ⟨cause, rfl, hcause⟩⟩
      cases he
      exact hcause.kind_ne
    | uncounted hwon =>
      cases hx
      have hroom := winners_card_lt hi hnone
      refine ⟨fun e he => ?_, fun hfew => ?_⟩
      · cases he
        simp [CreationError.cause, Error.kind]
      · omega

/-- One creation that looks up by age and one that looks up by number are refused `a`, and find the
same variant. The second is refused again, after another creation has stored `a` elsewhere. -/
theorem creations_race_two :
    let policy : Fin 3 → RetryPolicy := ![⟨2, .newest⟩, ⟨2, .highest⟩, ⟨0, .newest⟩]
    let candidate : Fin 3 → Entry := ![⟨"a", .user 1⟩, ⟨"a", .user 1⟩, ⟨"a", .everywhere⟩]
    let p : Creations (Fin 3) :=
      ⟨fun i => create (policy i) (candidate i), { rows := [⟨"a", .user 1⟩] }⟩
    let p' := p.run handle [0, 1, 0, 1, 2, 0, 1, 1, 1]
    let result : Except CreationError Entity := .ok ⟨4, "a-2"⟩
    p'.progs 1 = .done result ∧ (∀ e, result = .error e → e.cause.kind ≠ .slugTaken) ∧
      ((∃ entity, result = .ok entity) ∨ ∃ cause, result = .error (.resolve "a" cause) ∧
        NoNext "a" (slugsOf p'.store.rows (.user 1)) cause) := by
  intro policy candidate p p' result
  have hracers : ∀ i ∈ ({0, 1} : Finset (Fin 3)),
      p.progs i = create (policy i) (⟨"a", .user 1⟩ : Entry) := by
    intro i hi
    have hcandidate : ∀ i ∈ ({0, 1} : Finset (Fin 3)), candidate i = ⟨"a", .user 1⟩ := by decide
    rw [← hcandidate i hi]
  have hothers : ∀ i ∉ ({0, 1} : Finset (Fin 3)), Spares (.user 1) (p.progs i) := by
    have hscope : ∀ i ∉ ({0, 1} : Finset (Fin 3)), (candidate i).scope ≠ .user 1 := by decide
    exact fun i hi => spares_create (hscope i hi) (policy i)
  have hresult : p'.progs 1 = .done result := Prog.entity?_eq_some.mp (by decide +kernel)
  obtain ⟨hkind, hend⟩ := creations_race ⟨rfl, rfl, rfl⟩ hracers hothers (by decide)
    (.inr (by decide +kernel)) _ (by decide) hresult
  exact ⟨hresult, hkind, hend (by decide)⟩

/-- A variant of what is no slug is none either. A race for such a base is lost for its characters,
and not for a number or a length. -/
theorem not_race_of_any_base :
    ¬∀ (base : String) (scope : Scope) (rows : List Entry) (n : Nat) (policy : Fin n → RetryPolicy)
      (schedule : List (Fin n)) (i : Fin n) (result : Except CreationError Entity),
      (∀ i, n ≤ (policy i).retries.toNat) →
      (∀ i, (policy i).order = .highest) ∨ (numbers base (slugsOf rows scope)).Pairwise (· ≤ ·) →
      ((⟨fun i => create (policy i) ⟨base, scope⟩, { rows }⟩ : Creations (Fin n)).run handle
        schedule).progs i = .done result →
      (∃ entity, result = .ok entity) ∨ ∃ cause, result = .error (.resolve base cause) ∧
        (cause.kind = .unreadableSuffix ∨ cause.kind = .internal ∨
          ∃ length, cause = .invalid (Fault.tooLong length).message) := by
  intro h
  rcases h "Hero" (.user 1) [⟨"Hero", .user 1⟩] 1 (fun _ => ⟨1, .highest⟩) [0, 0, 0] 0
    (.error (.resolve "Hero" (.invalid (Fault.malformed "Hero-1").message))) (by decide)
    (.inl fun _ => rfl) (by rfl) with ⟨entity, hok⟩ | ⟨cause, herror, hcause⟩
  · cases hok
  · cases herror
    rcases hcause with hkind | hkind | ⟨length, hlength⟩
    · cases hkind
    · cases hkind
    · exact Fault.message_tooLong_ne length "Hero-1" (Error.invalid.inj hlength).symm

end Race

end Registry

end Storyline
