import MetadataClient.Proofs.Pool.Traffic
import Mathlib.Algebra.BigOperators.Group.List.Basic
import Mathlib.Algebra.Order.Group.Multiset
import Mathlib.Data.Multiset.Range
import Mathlib.Tactic.Abel

/-! Safety of a pool in use. Whatever its users do at the same time, every connection that was
opened and not closed is in one place, and there are never more to a backend than there may
be, those in the making counted with them. -/
namespace MetadataClient
namespace Traffic

variable {σ γ : Type}

namespace Effect

def opens : Effect γ → Multiset γ
  | connect (.ok connection) => {connection}
  | _ => 0

def closes : Effect γ → Multiset γ
  | close connection => {connection}
  | _ => 0

def acquires : Effect γ → Nat
  | countAcquired => 1
  | _ => 0

def releases : Effect γ → Nat
  | leave cause => cause.isEnded.toNat
  | _ => 0

def counts : Effect γ → Nat
  | countOpened => 1
  | _ => 0

/-- A place is given up: a connection is closed, or could not be opened. -/
def Vacates : Effect γ → Prop
  | close _ | connect (.error _) => True
  | _ => False

end Effect

namespace Stage

def isCalm : Stage γ → Bool
  | asleep | holding _ => true
  | _ => false

def count (test : Stage γ → Bool) (users : Multiset (Stage γ)) : Nat :=
  users.countP fun stage => test stage = true

/-- How many places of the slot are due to the user. -/
def place : Stage γ → Nat
  | connecting | connected _ | granted _ | holding _ => 1
  | _ => 0

def places (users : Multiset (Stage γ)) : Nat :=
  (users.map place).sum

def connections (users : Multiset (Stage γ)) : Multiset γ :=
  (users.map hand).sum

theorem count_cons (test : Stage γ → Bool) (stage : Stage γ) (users : Multiset (Stage γ)) :
    count test (stage ::ₘ users) = (test stage).toNat + count test users := by
  rw [count, count, Multiset.countP_cons, Nat.add_comm]
  cases test stage <;> rfl

theorem places_cons (stage : Stage γ) (users : Multiset (Stage γ)) :
    places (stage ::ₘ users) = stage.place + places users := by
  rw [places, places, Multiset.map_cons, Multiset.sum_cons]

theorem connections_cons (stage : Stage γ) (users : Multiset (Stage γ)) :
    connections (stage ::ₘ users) = stage.hand + connections users := by
  rw [connections, connections, Multiset.map_cons, Multiset.sum_cons]

theorem places_eq (users : Multiset (Stage γ)) :
    places users = (connections users).card + count isConnecting users := by
  induction users using Multiset.induction_on with
  | empty => rfl
  | cons stage users counted =>
    rw [places_cons, connections_cons, count_cons, Multiset.card_add, counted]
    cases stage <;>
      simp only [place, hand, isConnecting, Multiset.card_singleton, Multiset.card_zero,
        Bool.toNat_true, Bool.toNat_false] <;>
      omega

theorem card_connections (users : Multiset (Stage γ)) :
    (connections users).card =
      count isHolding users + (count isGranted users + count isConnected users) := by
  induction users using Multiset.induction_on with
  | empty => rfl
  | cons stage users counted =>
    rw [connections_cons, count_cons, count_cons, count_cons, Multiset.card_add, counted]
    cases stage <;>
      simp only [hand, isHolding, isGranted, isConnected, Multiset.card_singleton,
        Multiset.card_zero, Bool.toNat_true, Bool.toNat_false] <;>
      omega

end Stage

namespace Site

def count (site : Site γ) (test : Stage γ → Bool) : Nat :=
  Stage.count test site.users

/-- The connections in the hands of the users of the site. -/
def held (site : Site γ) : Multiset γ :=
  Stage.connections site.users

/-- All connections that are at the site. -/
def stock (site : Site γ) : Multiset γ :=
  site.slot.idle + site.held

/-- The slot accounts for all connections that there are or that are being opened. -/
structure Accounts (limit : Nat) (site : Site γ) : Prop where
  existing : site.slot.existing = site.slot.idle.length + Stage.places site.users
  bounded : site.slot.existing ≤ limit

theorem idle_cons (connection : γ) (idle : List γ) :
    ((connection :: idle : List γ) : Multiset γ) = {connection} + (idle : Multiset γ) := by
  rw [← Multiset.cons_coe, Multiset.singleton_add]

namespace Step

variable {limit : Nat} {site next : Site γ} {effect : Effect γ}

theorem accounts (moved : site.Step limit effect next) (known : site.Accounts limit) :
    next.Accounts limit := by
  obtain ⟨existing, bounded⟩ := known
  cases moved with
  | take turn =>
    cases Slot.eq_of_request_take turn
    constructor
    · simp only [Stage.places_cons, Stage.place, List.length_cons] at existing ⊢
      omega
    · exact bounded
  | reserve turn =>
    obtain ⟨none, below, rfl⟩ := Slot.eq_of_request_connect turn
    constructor
    · simp only [Stage.places_cons, Stage.place, none, List.length_nil] at existing ⊢
      omega
    · exact below
  | refuse | discard =>
    constructor
    · simp only [Stage.places_cons, Stage.place, Slot.vacate] at existing ⊢
      omega
    · exact (Nat.sub_le ..).trans bounded
  | arrive | sleep | connect | countOpened | countAcquired | release | wake | wakeNobody | leave =>
    constructor
    · simp only [Stage.places_cons, Stage.place, Slot.park, List.length_cons] at existing ⊢
      omega
    · exact bounded

/-- What is at the site afterwards is what was there before and what was opened, without what
was closed. -/
theorem stock_add (moved : site.Step limit effect next) :
    site.stock + effect.opens = next.stock + effect.closes := by
  cases moved with
  | take turn =>
    cases Slot.eq_of_request_take turn
    simp only [stock, held, Stage.connections_cons, Stage.hand, Effect.opens, Effect.closes,
      idle_cons]
    abel
  | reserve turn =>
    obtain ⟨none, -, rfl⟩ := Slot.eq_of_request_connect turn
    simp only [stock, held, Stage.connections_cons, Stage.hand, Effect.opens, Effect.closes, none]
  | release =>
    simp only [stock, held, Stage.connections_cons, Stage.hand, Effect.opens, Effect.closes,
      Slot.park, idle_cons]
    abel
  | connect | discard =>
    simp only [stock, held, Stage.connections_cons, Stage.hand, Effect.opens, Effect.closes,
      Slot.vacate]
    abel
  | arrive | sleep | refuse | countOpened | countAcquired | wake | wakeNobody | leave =>
    simp only [stock, held, Stage.connections_cons, Stage.hand, Effect.opens, Effect.closes,
      Slot.vacate, zero_add]

theorem loans_add (moved : site.Step limit effect next) :
    site.count Stage.isHolding + site.count Stage.isEnding + effect.acquires =
      next.count Stage.isHolding + next.count Stage.isEnding + effect.releases := by
  cases moved <;>
    simp only [count, Stage.count_cons, Stage.isHolding, Stage.isEnding, Cause.isEnded,
      Effect.acquires, Effect.releases, Bool.toNat_true, Bool.toNat_false] <;>
    omega

theorem opened_add (moved : site.Step limit effect next) :
    site.count Stage.isConnected + effect.opens.card =
      next.count Stage.isConnected + effect.counts := by
  cases moved <;>
    simp only [count, Stage.count_cons, Stage.isConnected, Effect.opens, Effect.counts,
      Multiset.card_singleton, Multiset.card_zero, Bool.toNat_true, Bool.toNat_false] <;>
    omega

theorem vacates (moved : site.Step limit effect next) (known : site.Accounts limit)
    (gives : effect.Vacates) : next.slot.existing + 1 = site.slot.existing := by
  obtain ⟨existing, -⟩ := known
  cases moved with
  | refuse | discard =>
    simp only [Stage.places_cons, Stage.place] at existing
    simp only [Slot.vacate]
    omega
  | _ => cases gives

end Step

/-- Nobody is in the middle of getting a connection or of ending a loan. -/
def Quiet (site : Site γ) : Prop :=
  ∀ stage ∈ site.users, stage.isCalm = true

theorem Quiet.count_eq_zero {site : Site γ} {test : Stage γ → Bool} (quiet : site.Quiet)
    (never : ∀ stage, (stage.isCalm && test stage) = false) : site.count test = 0 := by
  refine Multiset.countP_eq_zero.mpr ?_
  intro stage member tested
  have both : (stage.isCalm && test stage) = true := by rw [quiet stage member, tested]; rfl
  rw [never] at both
  cases both

end Site

section Total

variable {M : Type} [AddCommMonoid M]

/-- What is measured at the sites, each of them with its index, all together. -/
def total (measure : Nat → Site (Line γ) → M) (sites : List (Site (Line γ))) : M :=
  (sites.mapIdx measure).sum

variable (measure : Nat → Site (Line γ) → M) {sites : List (Site (Line γ))}

theorem total_cons (site : Site (Line γ)) (sites : List (Site (Line γ))) :
    total measure (site :: sites) =
      measure 0 site + total (fun index => measure (index + 1)) sites := by
  rw [total, List.mapIdx_cons, List.sum_cons, total]

theorem total_eq_zero (nothing : ∀ index, ∀ site ∈ sites, measure index site = 0) :
    total measure sites = 0 := by
  induction sites generalizing measure with
  | nil => rfl
  | cons site sites summed =>
    rw [total_cons, nothing 0 site List.mem_cons_self, zero_add]
    exact summed _ fun index other member => nothing _ other (List.mem_cons_of_mem _ member)

theorem total_add (other : Nat → Site (Line γ) → M) (sites : List (Site (Line γ))) :
    total (fun index site => measure index site + other index site) sites =
      total measure sites + total other sites := by
  induction sites generalizing measure other with
  | nil => exact (zero_add 0).symm
  | cons site sites summed =>
    simp only [total_cons, summed]
    abel

theorem map_total {N : Type} [AddCommMonoid N] (image : M →+ N) (sites : List (Site (Line γ))) :
    image (total measure sites) = total (fun index site => image (measure index site)) sites := by
  induction sites generalizing measure with
  | nil => exact image.map_zero
  | cons site sites summed => rw [total_cons, total_cons, image.map_add, summed]

theorem exists_total_set {index : Nat} {site : Site (Line γ)} (found : sites[index]? = some site) :
    ∃ others, total measure sites = measure index site + others ∧
      ∀ next, total measure (sites.set index next) = measure index next + others := by
  induction sites generalizing measure index with
  | nil => cases found
  | cons first sites split =>
    cases index with
    | zero =>
      cases found
      refine ⟨_, total_cons .., ?_⟩
      intro next
      rw [List.set_cons_zero, total_cons]
    | succ index =>
      obtain ⟨others, before, after⟩ := split (fun index => measure (index + 1)) found
      refine ⟨measure 0 first + others, ?_, ?_⟩
      · rw [total_cons, before, add_left_comm]
      · intro next
        rw [List.set_cons_succ, total_cons, after, add_left_comm]

/-- What balances at a site balances for all of them. -/
theorem total_balance {index : Nat} {site next : Site (Line γ)} {gain loss : M}
    (found : sites[index]? = some site)
    (balance : measure index site + gain = measure index next + loss) :
    total measure sites + gain = total measure (sites.set index next) + loss := by
  obtain ⟨others, before, after⟩ := exists_total_set measure found
  rw [before, after, add_right_comm, balance, add_right_comm]

end Total

def count (traffic : Traffic σ γ) (test : Stage (Line γ) → Bool) : Nat :=
  total (fun _ site => site.count test) traffic.sites

/-- The connections that nobody has, each with the backend whose slot it is in. -/
def idle (traffic : Traffic σ γ) : Multiset (Loan (Line γ)) :=
  total (fun index site => (site.slot.idle : Multiset (Line γ)).map (Loan.mk index)) traffic.sites

/-- The connections in the hands of users, each with the backend that it was asked for. -/
def lent (traffic : Traffic σ γ) : Multiset (Loan (Line γ)) :=
  total (fun index site => site.held.map (Loan.mk index)) traffic.sites

/-- The connections that are there, each with the backend it is at. -/
def stock (traffic : Traffic σ γ) : Multiset (Loan (Line γ)) :=
  total (fun index site => site.stock.map (Loan.mk index)) traffic.sites

theorem stock_eq (traffic : Traffic σ γ) : traffic.stock = traffic.idle + traffic.lent := by
  simp only [stock, Site.stock, Multiset.map_add, total_add, idle, lent]

theorem card_lent (traffic : Traffic σ γ) :
    traffic.lent.card = traffic.count Stage.isHolding +
      (traffic.count Stage.isGranted + traffic.count Stage.isConnected) := by
  have counted := map_total (fun index (site : Site (Line γ)) => site.held.map (Loan.mk index))
    Multiset.cardHom traffic.sites
  simp only [Multiset.cardHom_apply, Multiset.card_map, Site.held,
    Stage.card_connections, total_add] at counted
  exact counted

section Books

variable [Connector σ γ] {books after : Books σ γ} {index : Nat} {effect : Effect (Line γ)}

theorem Books.Record.exists_connector (noted : books.Record index effect after) :
    ∃ connector, after = ⟨connector, books.limit, books.acquired + effect.acquires,
      books.released + effect.releases, books.opened + effect.counts,
      effect.opens.map (Loan.mk index) + books.history,
      effect.closes.map (Loan.mk index) + books.closed⟩ := by
  refine ⟨after.connector, ?_⟩
  cases noted <;>
    simp only [Effect.opens, Effect.closes, Effect.acquires, Effect.releases, Effect.counts,
      Cause.isEnded, Bool.toNat_true, Bool.toNat_false, Multiset.map_zero,
      Multiset.map_singleton, Multiset.singleton_add, zero_add, add_zero]

/-- The connections are numbered without a gap. -/
def Books.Numbered (books : Books σ γ) : Prop :=
  books.history.map (·.connection.number) = Multiset.range books.history.card

theorem Books.Record.numbered (noted : books.Record index effect after)
    (known : books.Numbered) : after.Numbered := by
  cases noted with
  | connect connected =>
    rw [Books.Numbered, Multiset.map_cons, Multiset.card_cons, Multiset.range_succ, known]
  | _ => exact known

end Books

/-- The books agree with what is at the sites. -/
structure Agrees (traffic : Traffic σ γ) : Prop where
  placed : traffic.books.history = traffic.stock + traffic.books.closed
  loans : traffic.books.acquired =
    traffic.books.released + traffic.count Stage.isHolding + traffic.count Stage.isEnding
  openings : traffic.books.history.card =
    traffic.books.opened + traffic.count Stage.isConnected
  numbered : traffic.books.Numbered

variable [Connector σ γ]

theorem total_start {M : Type} [AddCommMonoid M] (connector : σ) (limit : Nat)
    (measure : Nat → Site (Line γ) → M) (nothing : ∀ index, measure index ⟨.empty, 0⟩ = 0) :
    total measure (start connector limit).sites = 0 := by
  refine total_eq_zero measure ?_
  intro index site member
  rw [List.eq_of_mem_replicate member, nothing]

theorem start_agrees (connector : σ) (limit : Nat) : (start connector limit).Agrees := by
  have nobody (test : Stage (Line γ) → Bool) : (start connector limit).count test = 0 :=
    total_start connector limit _ fun _ => rfl
  constructor
  · rw [stock, total_start connector limit _ fun _ => rfl]
    rfl
  · rw [nobody, nobody]
    rfl
  · rw [nobody]
    rfl
  · rfl

theorem Step.agrees {traffic after : Traffic σ γ} (step : Step traffic after)
    (known : traffic.Agrees) : after.Agrees := by
  obtain ⟨placed, loans, openings, numbered⟩ := known
  obtain @⟨books, after, sites, index, site, next, effect, found, moved, noted⟩ := step
  have still := noted.numbered numbered
  obtain ⟨connector, rfl⟩ := noted.exists_connector
  refine ⟨?_, ?_, ?_, still⟩
  · have balance : site.stock.map (Loan.mk index) + effect.opens.map (Loan.mk index) =
        next.stock.map (Loan.mk index) + effect.closes.map (Loan.mk index) := by
      rw [← Multiset.map_add, moved.stock_add, Multiset.map_add]
    have all := total_balance (fun index site => site.stock.map (Loan.mk index)) found balance
    simp only [stock] at placed ⊢
    rw [placed, ← add_assoc, add_comm (effect.opens.map _), all, add_assoc]
  · have all := total_balance
      (fun _ site => site.count Stage.isHolding + site.count Stage.isEnding) found moved.loans_add
    simp only [count, total_add] at loans all ⊢
    omega
  · have all := total_balance (fun _ site => site.count Stage.isConnected) found moved.opened_add
    simp only [count, Multiset.card_add, Multiset.card_map] at openings all ⊢
    omega

theorem Reaches.agrees {connector : σ} {limit : Nat} {traffic : Traffic σ γ}
    (run : Reaches (start connector limit) traffic) : traffic.Agrees := by
  induction run with
  | refl => exact start_agrees connector limit
  | tail _ step known => exact step.agrees known

theorem Reaches.accounts {connector : σ} {limit : Nat} {traffic : Traffic σ γ}
    (run : Reaches (start connector limit) traffic) :
    traffic.books.limit = max limit 1 ∧ ∀ site ∈ traffic.sites, site.Accounts (max limit 1) := by
  refine run.sites ⟨rfl, Nat.zero_le _⟩ ?_
  intro site next effect moved known
  exact moved.accounts known

/-- Nobody is in the middle of getting a connection or of ending a loan. -/
def Quiet (traffic : Traffic σ γ) : Prop :=
  ∀ site ∈ traffic.sites, site.Quiet

omit [Connector σ γ] in
theorem Quiet.count_eq_zero {traffic : Traffic σ γ} {test : Stage (Line γ) → Bool}
    (quiet : traffic.Quiet)
    (never : ∀ stage, (stage.isCalm && test stage) = false) : traffic.count test = 0 :=
  total_eq_zero _ fun _ site member => (quiet site member).count_eq_zero never

/-- A pool of which at most so many connections may exist to a backend is in order. Each place
that is counted is that of a connection, idle or in somebody's hands, or of one that is being
opened. A connection that was opened is idle, in somebody's hands or closed, and only one of
them, and has stayed with its backend. -/
structure Safe (traffic : Traffic σ γ) (limit : Nat) : Prop where
  counted : ∀ site ∈ traffic.sites, site.slot.existing =
    site.slot.idle.length + site.held.card + site.count Stage.isConnecting
  bounded : ∀ site ∈ traffic.sites, site.slot.existing ≤ max limit 1
  placed : traffic.books.history = traffic.idle + traffic.lent + traffic.books.closed
  distinct : ((traffic.idle + traffic.lent).map (·.connection.number)).Nodup
  vacates : ∀ site ∈ traffic.sites, ∀ effect next, site.Step traffic.books.limit effect next →
    effect.Vacates → next.slot.existing + 1 = site.slot.existing
  loans : traffic.books.acquired =
    traffic.books.released + traffic.count Stage.isHolding + traffic.count Stage.isEnding
  settled : traffic.Quiet → traffic.pool.inUse = traffic.count Stage.isHolding ∧
    traffic.pool.inUse = traffic.lent.card ∧ traffic.pool.opened = traffic.books.history.card

/-- Whatever is done at the same time, a pool is always in order. -/
theorem reaches_safe {connector : σ} {limit : Nat} {traffic : Traffic σ γ}
    (run : Reaches (start connector limit) traffic) : traffic.Safe limit := by
  obtain ⟨most, accounts⟩ := run.accounts
  obtain ⟨placed, loans, openings, numbered⟩ := run.agrees
  rw [stock_eq] at placed
  refine ⟨?_, ?_, placed, ?_, ?_, loans, ?_⟩
  · intro site member
    rw [(accounts site member).existing, Stage.places_eq, Nat.add_assoc]
    rfl
  · intro site member
    exact (accounts site member).bounded
  · have all : (traffic.books.history.map (·.connection.number)).Nodup := by
      rw [numbered]
      exact Multiset.nodup_range _
    rw [placed, Multiset.map_add] at all
    exact (Multiset.nodup_add.mp all).1
  · intro site member effect next moved gives
    rw [most] at moved
    exact moved.vacates (accounts site member) gives
  · intro quiet
    have ending : traffic.count Stage.isEnding = 0 :=
      quiet.count_eq_zero fun stage => by cases stage <;> rfl
    have granted : traffic.count Stage.isGranted = 0 :=
      quiet.count_eq_zero fun stage => by cases stage <;> rfl
    have connected : traffic.count Stage.isConnected = 0 :=
      quiet.count_eq_zero fun stage => by cases stage <;> rfl
    have lent := traffic.card_lent
    simp only [pool, Pool.inUse]
    omega

/-- With a limit of none, one connection may exist: it is lent while somebody else waits. -/
theorem reaches_safe_contended :
    Reaches (start (Numbered.new 1 []) 0) contended ∧ contended.Safe 0 :=
  ⟨contended_reaches, reaches_safe contended_reaches⟩

end Traffic
end MetadataClient
