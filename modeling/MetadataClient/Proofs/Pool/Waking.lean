import MetadataClient.Proofs.Pool.Safety

/-! Nobody sleeps at a pool for nothing. A connection that comes back or a place that comes free
is announced later, and meanwhile a newcomer may have taken it. Yet as long as somebody sleeps,
there are at least as many announcements to come, or users on their way from one, as there are
connections to be had. -/
namespace MetadataClient
namespace Traffic

variable {σ γ : Type}

namespace Site

/-- How many connections could be had at once: those that are idle, and those that may still
be opened. -/
def spare (limit : Nat) (site : Site γ) : Nat :=
  site.slot.idle.length + (limit - site.slot.existing)

/-- How many users there are who are to tell a sleeper, or were sleepers and have been told. -/
def called (site : Site γ) : Nat :=
  site.count Stage.isNotifying + site.count Stage.isWoken

/-- While somebody sleeps, there is a call for each connection that could be had. -/
def Wakeful (limit : Nat) (site : Site γ) : Prop :=
  Stage.asleep ∈ site.users → site.spare limit ≤ site.called

theorem Step.wakeful {limit : Nat} {site next : Site γ} {effect : Effect γ}
    (moved : site.Step limit effect next) (known : site.Wakeful limit) : next.Wakeful limit := by
  intro sleeps
  cases moved with
  | sleep turn =>
    -- Who goes to sleep has found that there is nothing to be had.
    obtain ⟨none, full⟩ := Slot.full_of_request_wait turn
    simp only [spare, none, List.length_nil, Nat.sub_eq_zero_of_le full, Nat.add_zero,
      Nat.zero_le]
  | @take _ _ _ woken _ turn =>
    -- A newcomer takes a connection and no call; who was woken takes one of each.
    cases Slot.eq_of_request_take turn
    have before := known (by simpa using sleeps)
    have once : woken.toNat ≤ 1 := Bool.toNat_le woken
    simp only [spare, called, count, Stage.count_cons, Stage.isNotifying, Stage.isWoken,
      List.length_cons, Bool.toNat_false] at before ⊢
    omega
  | @reserve _ _ _ woken turn =>
    obtain ⟨none, below, rfl⟩ := Slot.eq_of_request_connect turn
    have before := known (by simpa using sleeps)
    have once : woken.toNat ≤ 1 := Bool.toNat_le woken
    simp only [spare, called, count, Stage.count_cons, Stage.isNotifying, Stage.isWoken,
      none, List.length_nil, Bool.toNat_false] at before ⊢
    omega
  | wake =>
    have before := known (by simp)
    simp only [spare, called, count, Stage.count_cons, Stage.isNotifying, Stage.isWoken,
      Bool.toNat_false, Bool.toNat_true] at before ⊢
    omega
  | wakeNobody awake =>
    exact absurd (by simpa using sleeps) awake
  | arrive | refuse | connect | countOpened | countAcquired | release | discard | leave =>
    -- What is given back brings its call with it; the others leave both as they are.
    have before := known (by simpa using sleeps)
    simp only [spare, called, count, Stage.count_cons, Stage.isNotifying, Stage.isWoken,
      Slot.park, Slot.vacate, List.length_cons, Bool.toNat_false, Bool.toNat_true] at before ⊢
    omega

end Site

variable [Connector σ γ]

/-- While somebody sleeps at a site, there are as many calls as connections to be had. If nobody
is to be told and nobody has been, there is none to be had. -/
theorem spare_le_called {connector : σ} {limit : Nat} {traffic : Traffic σ γ}
    {site : Site (Line γ)} (run : Reaches (start connector limit) traffic)
    (used : site ∈ traffic.sites) (sleeps : Stage.asleep ∈ site.users) :
    site.slot.idle.length + (traffic.pool.limit - site.slot.existing) ≤
        site.count Stage.isNotifying + site.count Stage.isWoken ∧
      traffic.pool.limit = max limit 1 ∧
      (site.count Stage.isNotifying = 0 → site.count Stage.isWoken = 0 →
        site.slot.idle = [] ∧ site.slot.existing = traffic.pool.limit) := by
  have nobody : Site.Wakeful (max limit 1) (⟨.empty, 0⟩ : Site (Line γ)) := by
    intro asleep
    exact absurd asleep (Multiset.notMem_zero _)
  obtain ⟨most, wakeful⟩ := run.sites nobody fun moved => moved.wakeful
  have enough := wakeful site used sleeps
  rw [← most] at enough
  refine ⟨enough, most, ?_⟩
  intro told woken
  have bounded := (run.accounts.2 site used).bounded
  simp only [Site.spare, Site.called, told, woken] at enough
  constructor
  · apply List.eq_nil_of_length_eq_zero
    omega
  · simp only [pool]
    omega

/-- The holder of the only connection has given it back and not told the sleeper yet. -/
theorem spare_le_called_released :
    ∃ traffic, Reaches (start (Numbered.new 1 []) 0) traffic ∧
      ∃ site ∈ traffic.sites, Stage.asleep ∈ site.users ∧ site.slot.idle.length = 1 ∧
        site.slot.idle.length + (traffic.pool.limit - site.slot.existing) ≤
          site.count Stage.isNotifying + site.count Stage.isWoken := by
  have inside : 0 < contended.sites.length := Nat.zero_lt_one
  have holds : Reaches (start (Numbered.new 1 []) 0)
      ⟨contended.books, contended.sites.set 0
        ⟨⟨[], 1⟩, .holding ⟨0, 0⟩ ::ₘ .asleep ::ₘ 0⟩⟩ := contended_reaches
  have released : Reaches (start (Numbered.new 1 []) 0)
      ⟨contended.books, [⟨⟨[⟨0, 0⟩], 1⟩, .notifying .ended ::ₘ .asleep ::ₘ 0⟩]⟩ :=
    holds.move inside .release .nothing
  have sleeps : (Stage.asleep : Stage (Line Nat)) ∈ .notifying .ended ::ₘ .asleep ::ₘ 0 :=
    Multiset.mem_cons_of_mem (Multiset.mem_cons_self _ 0)
  have enough := spare_le_called released (List.mem_singleton_self _) sleeps
  exact ⟨_, released, _, List.mem_singleton_self _, sleeps, rfl, enough.1⟩

end Traffic
end MetadataClient
