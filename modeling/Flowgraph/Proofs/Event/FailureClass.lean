import Flowgraph.Proofs.Event.Lenience

/-!
# What a failure is classified by

Five statuses tell the class of a failure: failed authentication, exceeded rates, or a timeout.
The classes are looked at one after the other, each by its statuses and its codes, and so a code
of an earlier class comes before a status of a later one. A status decides unless there is such a
code; where no status tells anything, the code decides.
-/
namespace Flowgraph.ProviderFailure

/-- The statuses that tell a class, and the class that each of them tells. -/
inductive Tells : Int → FailureClass → Prop
  | unauthorized : Tells 401 .auth
  | forbidden : Tells 403 .auth
  | tooManyRequests : Tells 429 .rateLimit
  | requestTimeout : Tells 408 .timeout
  | gatewayTimeout : Tells 504 .timeout

/-- A status that is given as an integer, or as a text of digits with blanks around it. -/
inductive States : Json → Int → Prop
  | number (n : Int) : States (.int n) n
  | text {s : String} {n : Int} (some : statusText s ≠ [])
      (digits : ∀ c ∈ statusText s, Text.isDigit c = true)
      (read : Text.readInteger (statusText s) = .ok n) : States (.str s) n

/-- A code tells of a class that is looked at before another one. -/
def Overrules (code : String) (c : FailureClass) : Prop :=
  c ≠ .auth ∧ code ∈ authCodes ∨ c = .timeout ∧ code ∈ rateLimitCodes

variable {status code provider : Json} {n : Int} {c : FailureClass}

theorem statusOf_eq_some_iff : statusOf status = .ok (some n) ↔ States status n := by
  constructor
  · intro read
    cases status with
    | int m =>
      obtain rfl := Option.some.inj (Except.ok.inj read)
      exact .number m
    | str s =>
      by_cases digits : statusText s ≠ [] ∧ ∀ c ∈ statusText s, Text.isDigit c = true
      · rw [statusOf_of_digits digits.1 digits.2, Json.readInteger, String.toList_ofList] at read
        cases number : Text.readInteger (statusText s) with
        | ok m =>
          rw [number] at read
          obtain rfl := Option.some.inj (Except.ok.inj read)
          exact .text digits.1 digits.2 number
        | error e =>
          rw [number] at read
          cases e <;> cases read
      · rw [statusOf_of_unusable (unusable_str digits)] at read
        cases read
    | null | bool | float | arr | obj => cases read
  · intro states
    cases states with
    | number => rfl
    | text some digits read =>
      rw [statusOf_of_digits some digits, Json.readInteger, String.toList_ofList, read]
      rfl

/-- Of a status that tells a class, the code matters only where it comes first. -/
theorem classOf_of_tells (tells : Tells n c) (code : String) : classOf (some n) code =
    if code ∈ authCodes then .auth else if c = .timeout ∧ code ∈ rateLimitCodes then .rateLimit
      else c := by
  cases tells <;> simp [classOf]

theorem classOf_of_overrules {code : String} (overrules : Overrules code c) (tells : Tells n c) :
    classOf (some n) code = classOf none code ∧ classOf none code ≠ c := by
  have first (told : code ∈ authCodes) (later : c ≠ .auth) :
      classOf (some n) code = classOf none code ∧ classOf none code ≠ c := by
    have own : classOf none code = .auth := by simp [classOf, told]
    rw [classOf_of_tells tells, if_pos told, own]
    exact ⟨rfl, later.symm⟩
  rcases overrules with ⟨later, told⟩ | ⟨rfl, told⟩
  · exact first told later
  · by_cases auth : code ∈ authCodes
    · exact first auth (by decide)
    · have own : classOf none code = .rateLimit := by simp [classOf, auth, told]
      rw [classOf_of_tells tells, if_neg auth, if_pos ⟨rfl, told⟩, own]
      exact ⟨rfl, by decide⟩

theorem classOf_eq_of_tells {code : String} (free : ¬Overrules code c) (tells : Tells n c) :
    classOf (some n) code = c := by
  rw [classOf_of_tells tells]
  split
  · rename_i told
    by_contra later
    exact free (.inl ⟨Ne.symm later, told⟩)
  · split
    · rename_i told
      exact absurd (.inr told) free
    · rfl

/-- A status that tells nothing leaves it to the code. -/
theorem classOf_of_untelling {status : Option Int}
    (untelling : ∀ n c, status = some n → ¬Tells n c) (code : String) :
    classOf status code = classOf none code := by
  have other {n : Int} {c : FailureClass} (tells : Tells n c) : status ≠ some n :=
    fun same => untelling n c same tells
  simp [classOf, other .unauthorized, other .forbidden, other .tooManyRequests,
    other .requestTimeout, other .gatewayTimeout]

theorem retryable_iff (f : ProviderFailure) :
    f.retryable = true ↔ f.code = .rateLimit ∨ f.code = .timeout := by
  unfold retryable FailureClass.retryable
  cases f.code <;> simp

/-- A failure with a status that tells a class is put in that class exactly where no code comes
first, and otherwise in the class of the code, as it is where no status tells anything. Only
exceeded rates and timeouts are tried again. -/
theorem status_decides_class_iff
    (provided : (∃ name, provider = .str name) ∨ provider.truthy = false) :
    (∀ n c, States status n → Tells n c → ∃ f, classify status code provider = .ok f ∧
      f.status = some n ∧ (f.code = c ↔ ¬Overrules (codeOf code) c) ∧
      (Overrules (codeOf code) c → f.code = classOf none (codeOf code)) ∧
      (f.retryable = true ↔ f.code = .rateLimit ∨ f.code = .timeout)) ∧
    ∀ f, classify status code provider = .ok f → (∀ n c, States status n → ¬Tells n c) →
      f.code = classOf none (codeOf code) := by
  obtain ⟨p, named⟩ := (exists_providerOf_iff provider).mpr provided
  have classified {found : Option Int} (read : statusOf status = .ok found) :
      classify status code provider = .ok ⟨classOf found (codeOf code), p, found⟩ := by
    rw [classify, read, named]
    rfl
  constructor
  · intro n c states tells
    refine ⟨_, classified (statusOf_eq_some_iff.mpr states), rfl, ?_, ?_, retryable_iff _⟩
    · constructor
      · intro same overrules
        obtain ⟨own, other⟩ := classOf_of_overrules overrules tells
        exact other (own.symm.trans same)
      · exact fun free => classOf_eq_of_tells free tells
    · exact fun overrules => (classOf_of_overrules overrules tells).1
  · intro f made untelling
    cases read : statusOf status with
    | error e =>
      rw [classify, read] at made
      cases made
    | ok found =>
      rw [classified read] at made
      cases made
      refine classOf_of_untelling (fun n c same => ?_) _
      rw [same] at read
      exact untelling n c (statusOf_eq_some_iff.mp read)

/-- A status text with a code that tells of a later class, and one with an earlier one. -/
theorem forbidden_status_decides : ((∃ name, Json.str "OpenAI" = .str name) ∨
      (Json.str "OpenAI").truthy = false) ∧ States (.str " 403 ") 403 ∧ Tells 403 .auth ∧
    ∃ f, classify (.str " 403 ") (.str "RATE_LIMIT") (.str "OpenAI") = .ok f ∧
      f.code = .auth ∧ f.retryable = false := by
  have provided : (∃ name, Json.str "OpenAI" = .str name) ∨
      (Json.str "OpenAI").truthy = false := .inl ⟨"OpenAI", rfl⟩
  have states : States (.str " 403 ") 403 := statusOf_eq_some_iff.mp rfl
  obtain ⟨f, made, -, decided, -, again⟩ :=
    (@status_decides_class_iff _ (.str "RATE_LIMIT") _ provided).1 403 .auth states .forbidden
  have free : ¬Overrules (codeOf (.str "RATE_LIMIT")) .auth := by
    rintro (⟨other, -⟩ | ⟨other, -⟩)
    · exact other rfl
    · cases other
  have auth := decided.mpr free
  refine ⟨provided, states, .forbidden, f, made, auth, ?_⟩
  rw [← Bool.not_eq_true, again, auth]
  decide

/-- Exceeded rates are taken for failed authentication where the code says so, and a timeout for
exceeded rates. -/
theorem status_overruled_by_code :
    (States (.int 429) 429 ∧ Tells 429 .rateLimit ∧
      classify (.int 429) (.str "unauthorized") .null = .ok ⟨.auth, .unknown, some 429⟩) ∧
    (States (.int 408) 408 ∧ Tells 408 .timeout ∧
      classify (.int 408) (.str "rate_limit") .null = .ok ⟨.rateLimit, .unknown, some 408⟩) :=
  ⟨⟨.number 429, .tooManyRequests, by decide⟩, .number 408, .requestTimeout, by decide⟩

end Flowgraph.ProviderFailure
