import BeamSdk.Library.Calendar
import BeamSdk.Rust.HuggingFace

/-! How long a route that the Rust SDK signs is good for, by the expiry that its URLs declare. -/

namespace Beam.Rust.Expiry
open Rust.HuggingFace (parse parseDigits maxU64)

def secondNanos : ℕ := 10 ^ 9

def milliNanos : ℕ := 10 ^ 6

/-- The last time that there is: the seconds are an `i64`. -/
def maxTime : ℕ := (2 ^ 63 - 1) * secondNanos + (secondNanos - 1)

def checkedAdd (time duration : ℕ) : Option ℕ :=
    if time + duration ≤ maxTime then some (time + duration) else none

def parseI32 (text : List Char) : Option ℤ :=
  match text with
  | '-' :: digits => (parseDigits (2 ^ 31) digits).map fun value => -(value : ℤ)
  | text => (parse (2 ^ 31 - 1) (String.ofList text)).map fun value => (value : ℤ)

def parseU8 (text : List Char) : Option ℕ := parse 255 (String.ofList text)

def timestamp (value : String) : Option ℤ := do
  let chars := value.toList
  if chars.length ≠ 16 ∨ ¬ chars.all (·.toNat < 128) then none
  let year ← parseI32 (chars.take 4)
  let month ← parseU8 ((chars.drop 4).take 2)
  let day ← parseU8 ((chars.drop 6).take 2)
  let hour ← parseU8 ((chars.drop 9).take 2)
  let minute ← parseU8 ((chars.drop 11).take 2)
  let second ← parseU8 ((chars.drop 13).take 2)
  if month < 1 ∨ 12 < month ∨ day < 1 ∨ Calendar.monthLength year month < day then none
  if 24 ≤ hour ∨ 60 ≤ minute ∨ 60 ≤ second then none
  return Calendar.dayNumber year month day * 86400 + (hour * 3600 + minute * 60 + second : ℕ)

def parseDate (value : String) : Option ℕ :=
  match timestamp value with
  | some epoch => if epoch < 0 then none else checkedAdd 0 (epoch.toNat * secondNanos)
  | none => none

def param (query : List (String × String)) (name : String) : Option String :=
    OrderedMap.get query.reverse name

def dated (query : List (String × String)) (form : String) : Option ℕ := do
  let date ← param query s!"{form}-Date"
  let seconds ← param query s!"{form}-Expires"
  checkedAdd (← parseDate date) ((← parse maxU64 seconds) * secondNanos)

def unixTime (query : List (String × String)) : Option ℕ := do
  checkedAdd 0 ((← parse maxU64 (← param query "Expires")) * secondNanos)

/-- The expiries that are read in a query; `none` for a text that is not a URL. -/
def expiries (query : Option (List (String × String))) : List ℕ :=
  match query with
  | none => []
  | some query => [dated query "X-Amz", dated query "X-Goog", unixTime query].filterMap id

def boundedGrantExpiry (query : Option (List (String × String))) (upperBound : ℕ) : ℕ :=
    (expiries query).foldl min upperBound

structure IsoTime where
  year : ℤ
  month : ℤ
  day : ℤ
  hour : ℤ
  minute : ℤ
  second : ℤ
  millis : ℕ
  deriving DecidableEq

def civilFromDays (daysSinceEpoch : ℤ) : ℤ × ℤ × ℤ :=
  let z := daysSinceEpoch + 719468
  let era := (if 0 ≤ z then z else z - 146096) / 146097
  let doe := z - era * 146097
  let yoe := (doe - doe / 1460 + doe / 36524 - doe / 146096) / 365
  let year := yoe + era * 400
  let doy := doe - (365 * yoe + yoe / 4 - yoe / 100)
  let mp := (5 * doy + 2) / 153
  let day := doy - (153 * mp + 2) / 5 + 1
  let month := mp + if mp < 10 then 3 else -9
  (year + if month ≤ 2 then 1 else 0, month, day)

def isoAt (value : ℕ) : IsoTime :=
  let totalSeconds : ℤ := (value / secondNanos : ℕ)
  let (year, month, day) := civilFromDays (totalSeconds / 86400)
  let secondsOfDay := totalSeconds % 86400
  ⟨year, month, day, secondsOfDay / 3600, secondsOfDay % 3600 / 60, secondsOfDay % 60,
    value % secondNanos / milliNanos⟩

def IsoTime.instant (time : IsoTime) : ℤ :=
  (Calendar.dayNumber time.year time.month time.day * 86400 + time.hour * 3600 + time.minute * 60 +
    time.second) * secondNanos +
    time.millis * milliNanos

theorem dayNumber_civil {days : ℤ} (h : 0 ≤ days) :
    Calendar.dayNumber (civilFromDays days).1 (civilFromDays days).2.1
      (civilFromDays days).2.2 = days := by
  unfold civilFromDays
  simp only
  rw [if_pos (by omega)]
  generalize hera : (days + 719468) / 146097 = era
  generalize hdoe : days + 719468 - era * 146097 = doe
  generalize hyoe : (doe - doe / 1460 + doe / 36524 - doe / 146096) / 365 = yoe
  have hdoe0 : 0 ≤ doe := by omega
  have hdoe1 : doe < 146097 := by omega
  obtain ⟨hyoe0, hyoe1, hdoy0, hdoy1⟩ := Calendar.dayOfYear_bounds hdoe0 hdoe1 rfl hyoe.symm
  generalize hdoy : doe - (365 * yoe + yoe / 4 - yoe / 100) = doy at hdoy0 hdoy1 ⊢
  generalize hmp : (5 * doy + 2) / 153 = mp
  have hyear : (if mp + (if mp < 10 then 3 else -9) ≤ 2 then (1 : ℤ) else 0) = if mp < 10 then 0
      else 1 := by
    split <;> split <;> omega
  rw [hyear, Calendar.dayNumber_march (by omega) (by omega)]
  have hfour : (yoe + era * 400) / 4 = yoe / 4 + era * 100 := by omega
  have hhundred : (yoe + era * 400) / 100 = yoe / 100 + era * 4 := by omega
  have hcycle : (yoe + era * 400) / 400 = era := by omega
  unfold Calendar.marchStart Calendar.yearStart
  rw [hfour, hhundred, hcycle]
  omega

theorem instant_isoAt (value : ℕ) : (isoAt value).instant =
    (value / milliNanos * milliNanos : ℕ) := by
  have hday : 0 ≤ ((value / secondNanos : ℕ) : ℤ) / 86400 := by
    generalize value / secondNanos = seconds
    omega
  have hcivil := dayNumber_civil hday
  unfold isoAt IsoTime.instant
  simp only
  rw [hcivil]
  unfold secondNanos milliNanos
  omega

abbrev QueryPairs := String → Option (List (String × String))

section
variable (queryPairs : QueryPairs)

structure SourceChunkGrant where
  url : String
  expiresAt : ℕ
  bounded : ∃ upperBound, expiresAt = boundedGrantExpiry (queryPairs url) upperBound

/-- The source of a chunk: granted before, or with a URL that is there, or signed, at a time. -/
inductive Source
  | granted (grant : SourceChunkGrant queryPairs)
  | signed (url : Except String String) (now : ℕ)

/-- When signing the destination is over: before the source is looked at, or after that, and before
the source is signed or not. -/
inductive Over
  | first
  | between
  | last

/-- What a route is signed from. The destination's URL is one that was issued before, or signed. -/
structure DestinationRouteInput where
  now : ℕ
  expiresIn : ℕ
  objectKey : Option String
  destUrl : Except String String
  finishes : Over
  source : Source queryPairs
  -- the time when both URLs are there
  attached : ℕ

structure SignedChunkRoute where
  sourceUrl : String
  destUrl : String
  expiresAt : IsoTime
  deriving DecidableEq

variable {queryPairs}

/-- `none`: the addition overflows, which panics. -/
def signSourceChunk (url : Except String String) (now lifetime : ℕ) :
    Option (Except String (SourceChunkGrant queryPairs)) :=
  (checkedAdd now lifetime).map fun expiresAt =>
    url.map fun url => ⟨url, boundedGrantExpiry (queryPairs url) expiresAt, expiresAt, rfl⟩

namespace DestinationRouteInput
variable (input : DestinationRouteInput queryPairs)

def lifetime : ℕ := if input.expiresIn = 0 then 3600 * secondNanos else input.expiresIn

def sourceGrant : Option (Except String (SourceChunkGrant queryPairs)) :=
  match input.source with
  | .granted grant => some (.ok grant)
  | .signed url now => signSourceChunk url now input.lifetime

/-- `try_join!` looks at the destination first, and at the source unless the destination has failed
by then. -/
def tryJoin : Option (Except String (String × SourceChunkGrant queryPairs)) :=
  match input.destUrl, input.finishes, input.sourceGrant with
  | .error error, .first, _ => some (.error error)
  | _, _, none => none
  | .error error, .between, _ => some (.error error)
  | _, _, some (.error error) => some (.error error)
  | .error error, _, _ => some (.error error)
  | .ok destUrl, _, some (.ok grant) => some (.ok (destUrl, grant))

def signDestinationRoute : Option (Except String SignedChunkRoute) :=
  match checkedAdd input.now input.lifetime, input.objectKey with
  | none, _ => none
  | _, none => some (.error "destination signing target is missing object_key")
  | some expiresAt, some _ => input.tryJoin.map fun
    | .error error => .error error
    | .ok (destUrl, grant) =>
      let expiresAt := min expiresAt grant.expiresAt
      if expiresAt ≤ input.attached then .error "source grant expired before attachment"
      else .ok ⟨grant.url, destUrl, isoAt (boundedGrantExpiry (queryPairs destUrl) expiresAt)⟩

end DestinationRouteInput
end

def wellFormed (value : String) : Bool :=
  let chars := value.toList
  chars.length == 16 && chars[8]? == some 'T' && chars[15]? == some 'Z' &&
    (chars.take 8 ++ (chars.drop 9).take 6).all Char.isDigit

def declaredForm (query : List (String × String)) (form : String) : Option (ℤ × ℕ) := do
  let date ← param query s!"{form}-Date"
  let seconds ← param query s!"{form}-Expires"
  if wellFormed date then return (← timestamp date, ← parse maxU64 seconds) else none

def declaredUnix (query : List (String × String)) : Option (ℤ × ℕ) :=
    do return (0, ← parse maxU64 (← param query "Expires"))

def declaredForms (query : Option (List (String × String))) : List (ℤ × ℕ) :=
  match query with
  | none => []
  | some query =>
      [declaredForm query "X-Amz", declaredForm query "X-Goog", declaredUnix query].filterMap id

def expiry (form : ℤ × ℕ) : ℤ := (form.1 + form.2) * secondNanos

def declared (query : Option (List (String × String))) : List ℤ := (declaredForms query).map expiry

def early (query : Option (List (String × String))) : List ℤ :=
    ((declaredForms query).filter fun form => form.1 < 0).map expiry

variable {queryPairs : QueryPairs}

/-- Nothing overflows, and a route is good no longer than it may be and no longer than its URLs,
and longer than now. -/
def ExpirySound (input : DestinationRouteInput queryPairs) : Prop :=
  ∃ result, input.signDestinationRoute = some result ∧ ∀ route, result = .ok route →
    route.expiresAt.instant ≤ (input.now + input.lifetime : ℕ) ∧
      (∀ expiry ∈ declared (queryPairs route.sourceUrl) ++ declared (queryPairs route.destUrl),
        route.expiresAt.instant ≤ expiry) ∧
      (input.now : ℤ) < route.expiresAt.instant

/-- Where the source grant has not expired, a millisecond is left, the destination's URL has not
expired, and no date before 1970 declares the least expiry. -/
def Lasts (input : DestinationRouteInput queryPairs) (destUrl : String)
    (grant : SourceChunkGrant queryPairs) : Prop :=
  let expiresAt := min (input.now + input.lifetime) grant.expiresAt
  let destination := expiries (queryPairs destUrl)
  expiresAt ≤ input.attached ∨
    (input.now < expiresAt / milliNanos * milliNanos ∧
      (∀ expiry ∈ destination, input.now < expiry) ∧
      ∀ expiry ∈ early (queryPairs grant.url) ++ early (queryPairs destUrl),
        (expiresAt / milliNanos * milliNanos : ℕ) ≤ expiry ∨
          ∃ other ∈ destination, (other : ℤ) ≤ expiry)

def GrantsLast (input : DestinationRouteInput queryPairs) : Prop :=
  checkedAdd input.now input.lifetime ≠ none ∧
    ∀ key, input.objectKey = some key →
      (input.sourceGrant = none → input.finishes = .first ∧ ∃ error, input.destUrl = .error error) ∧
        ∀ destUrl grant, input.destUrl = .ok destUrl → input.sourceGrant = some (.ok grant) →
          Lasts input destUrl grant

theorem foldl_min_le {expiries : List ℕ} {upperBound : ℕ} {x : ℤ} :
    (expiries.foldl min upperBound : ℕ) ≤ x ↔ (upperBound : ℤ) ≤ x ∨
      ∃ expiry ∈ expiries, (expiry : ℤ) ≤ x := by
  induction expiries generalizing upperBound with
  | nil => simp
  | cons expiry expiries ih =>
    rw [List.foldl_cons, ih, Nat.cast_min, min_le_iff, List.exists_mem_cons_iff, or_assoc]

theorem lt_foldl_min {expiries : List ℕ} {upperBound x : ℕ} :
    x < expiries.foldl min upperBound ↔ x < upperBound ∧ ∀ expiry ∈ expiries, x < expiry := by
  induction expiries generalizing upperBound with
  | nil => simp
  | cons expiry expiries ih =>
    rw [List.foldl_cons, ih, lt_min_iff, List.forall_mem_cons, and_assoc]

theorem floor_foldl_min {expiries : List ℕ}
    (h : ∀ expiry ∈ expiries, expiry / milliNanos * milliNanos = expiry)
    (upperBound : ℕ) :
    expiries.foldl min upperBound / milliNanos * milliNanos =
      expiries.foldl min (upperBound / milliNanos * milliNanos) := by
  induction expiries generalizing upperBound with
  | nil => rfl
  | cons expiry expiries ih =>
    have hmin : min upperBound expiry / milliNanos * milliNanos =
        min (upperBound / milliNanos * milliNanos) expiry := by
      have hexact := h expiry List.mem_cons_self
      rcases Nat.le_total upperBound expiry with hle | hle
      · rw [min_eq_left hle, min_eq_left (Nat.le_trans (Nat.div_mul_le_self _ _) hle)]
      · have hmono : expiry / milliNanos * milliNanos ≤ upperBound / milliNanos * milliNanos :=
          Nat.mul_le_mul_right _ (Nat.div_le_div_right hle)
        rw [min_eq_right hle, hexact, min_eq_right (hexact ▸ hmono)]
    rw [List.foldl_cons, List.foldl_cons,
      ih (fun other hother => h other (List.mem_cons_of_mem _ hother)), hmin]

theorem checkedAdd_eq {time duration sum : ℕ} (h : checkedAdd time duration = some sum) :
    sum = time + duration ∧ sum ≤ maxTime := by
  obtain ⟨hle, heq⟩ := Option.ite_none_right_eq_some.mp h
  cases heq
  exact ⟨rfl, hle⟩

theorem checkedAdd_none {time duration : ℕ} (h : checkedAdd time duration = none) :
    maxTime < time + duration := by
  unfold checkedAdd at h
  split at h
  · cases h
  · rename_i hlt
    exact Nat.lt_of_not_le hlt

theorem parseDate_eq {value : String} {start : ℕ} (h : parseDate value = some start) :
    ∃ epoch : ℕ, start = epoch * secondNanos ∧ timestamp value = some (epoch : ℤ) := by
  unfold parseDate at h
  split at h
  · rename_i epoch hepoch
    obtain ⟨hlate, h⟩ := Option.ite_none_left_eq_some.mp h
    refine ⟨epoch.toNat, ?_, ?_⟩
    · rw [(checkedAdd_eq h).1, Nat.zero_add]
    · rw [hepoch, Int.toNat_of_nonneg (Int.not_lt.mp hlate)]
  · cases h

theorem parseDate_none {value : String} {epoch : ℕ} (h : parseDate value = none)
    (hepoch : timestamp value = some (epoch : ℤ)) :
    maxTime < epoch * secondNanos := by
  unfold parseDate at h
  rw [hepoch] at h
  simp only at h
  rw [if_neg (Int.not_lt.mpr (Int.natCast_nonneg epoch)), Int.toNat_natCast] at h
  have hlt := checkedAdd_none h
  rwa [Nat.zero_add] at hlt

theorem dated_eq {query : List (String × String)} {form : String} {time : ℕ}
    (h : dated query form = some time) :
    ∃ seconds, time = seconds * secondNanos := by
  obtain ⟨date, -, h⟩ := Option.bind_eq_some_iff.mp h
  obtain ⟨text, -, h⟩ := Option.bind_eq_some_iff.mp h
  obtain ⟨start, hstart, h⟩ := Option.bind_eq_some_iff.mp h
  obtain ⟨seconds, -, h⟩ := Option.bind_eq_some_iff.mp h
  obtain ⟨epoch, rfl, -⟩ := parseDate_eq hstart
  refine ⟨epoch + seconds, ?_⟩
  rw [(checkedAdd_eq h).1, Nat.add_mul]

theorem unixTime_eq {query : List (String × String)} {time : ℕ} (h : unixTime query = some time) :
    ∃ seconds, time = seconds * secondNanos := by
  obtain ⟨text, -, h⟩ := Option.bind_eq_some_iff.mp h
  obtain ⟨seconds, -, h⟩ := Option.bind_eq_some_iff.mp h
  refine ⟨seconds, ?_⟩
  rw [(checkedAdd_eq h).1, Nat.zero_add]

theorem expiries_exact {query : Option (List (String × String))} {time : ℕ}
    (h : time ∈ expiries query) :
    time / milliNanos * milliNanos = time := by
  have hwhole : ∃ seconds, time = seconds * secondNanos := by
    cases query with
    | none => cases h
    | some query =>
      obtain ⟨read, hmem, hread⟩ := List.mem_filterMap.mp h
      rcases List.mem_cons.mp hmem with rfl | hmem
      · exact dated_eq hread
      · rcases List.mem_cons.mp hmem with rfl | hmem
        · exact dated_eq hread
        · obtain rfl := List.mem_singleton.mp hmem
          exact unixTime_eq hread
  obtain ⟨seconds, rfl⟩ := hwhole
  unfold milliNanos secondNanos
  omega

theorem declaredForm_read {query : List (String × String)} {name : String} {form : ℤ × ℕ}
    (h : declaredForm query name = some form) :
    form.1 < 0 ∨ (∃ time, dated query name = some time ∧ (time : ℤ) = expiry form) ∨
      maxTime < expiry form := by
  obtain ⟨date, hdate, h⟩ := Option.bind_eq_some_iff.mp h
  obtain ⟨text, htext, h⟩ := Option.bind_eq_some_iff.mp h
  obtain ⟨-, h⟩ := Option.ite_none_right_eq_some.mp h
  obtain ⟨start, hstart, h⟩ := Option.bind_eq_some_iff.mp h
  obtain ⟨seconds, hseconds, h⟩ := Option.bind_eq_some_iff.mp h
  cases h
  rcases lt_or_ge start 0 with hearly | hlate
  · exact .inl hearly
  · obtain ⟨epoch, rfl⟩ := Int.eq_ofNat_of_zero_le hlate
    refine .inr ?_
    have hexpiry : expiry ((epoch : ℤ), seconds) =
        (epoch * secondNanos + seconds * secondNanos : ℕ) := by
      unfold expiry
      push_cast
      exact Int.add_mul _ _ _
    have hread : dated query name = (parseDate date).bind fun start =>
        checkedAdd start (seconds * secondNanos) := by
      unfold dated
      rw [hdate, Option.bind_eq_bind, Option.bind_some, htext, Option.bind_eq_bind,
        Option.bind_some]
      refine congrArg _ (funext fun start => ?_)
      rw [hseconds, Option.bind_some]
    rw [hexpiry]
    cases hparse : parseDate date with
    | none =>
      have hlt := parseDate_none hparse hstart
      exact .inr (Int.ofNat_lt.mpr (Nat.lt_of_lt_of_le hlt (Nat.le_add_right _ _)))
    | some time =>
      obtain ⟨epoch', rfl, hepoch'⟩ := parseDate_eq hparse
      obtain rfl : epoch = epoch' := by
        have heq := Option.some.inj (hstart.symm.trans hepoch')
        omega
      rw [hparse, Option.bind_some] at hread
      cases hsum : checkedAdd (epoch * secondNanos) (seconds * secondNanos) with
      | none =>
        exact .inr (Int.ofNat_lt.mpr (checkedAdd_none hsum))
      | some sum => exact .inl ⟨sum, hread.trans hsum, by rw [(checkedAdd_eq hsum).1]⟩

theorem declaredUnix_read {query : List (String × String)} {form : ℤ × ℕ}
    (h : declaredUnix query = some form) :
    (∃ time, unixTime query = some time ∧ (time : ℤ) = expiry form) ∨ maxTime < expiry form := by
  obtain ⟨text, htext, h⟩ := Option.bind_eq_some_iff.mp h
  obtain ⟨seconds, hseconds, h⟩ := Option.bind_eq_some_iff.mp h
  cases h
  have hexpiry : expiry ((0 : ℤ), seconds) = (0 + seconds * secondNanos : ℕ) := by
    unfold expiry
    generalize secondNanos = nanos
    push_cast
    simp only [Int.zero_add]
  have hread : unixTime query = checkedAdd 0 (seconds * secondNanos) := by
    unfold unixTime
    rw [htext, Option.bind_eq_bind, Option.bind_some, hseconds, Option.bind_eq_bind,
      Option.bind_some]
  rw [hexpiry]
  cases hsum : checkedAdd 0 (seconds * secondNanos) with
  | none => exact .inr (Int.ofNat_lt.mpr (checkedAdd_none hsum))
  | some sum => exact .inl ⟨sum, hread.trans hsum, by rw [(checkedAdd_eq hsum).1]⟩

theorem declared_read {query : Option (List (String × String))} {form : ℤ × ℕ}
    (h : form ∈ declaredForms query) :
    form.1 < 0 ∨ (∃ time ∈ expiries query, (time : ℤ) = expiry form) ∨ maxTime < expiry form := by
  cases query with
  | none => cases h
  | some query =>
    have hmem : ∀ read ∈ [dated query "X-Amz", dated query "X-Goog", unixTime query], ∀ time,
        read = some time →
        time ∈ expiries (some query) := fun read hmem time hread =>
          List.mem_filterMap.mpr ⟨read, hmem, hread⟩
    have hform : ∀ name, dated query name ∈
        [dated query "X-Amz", dated query "X-Goog", unixTime query] →
        declaredForm query name = some form →
        form.1 < 0 ∨ (∃ time ∈ expiries (some query), (time : ℤ) = expiry form) ∨
          maxTime < expiry form := by
      intro name hname hdeclared
      obtain hearly | ⟨time, hread, heq⟩ | hlate := declaredForm_read hdeclared
      · exact .inl hearly
      · exact .inr (.inl ⟨time, hmem _ hname time hread, heq⟩)
      · exact .inr (.inr hlate)
    obtain ⟨read, hread, hdeclared⟩ := List.mem_filterMap.mp h
    rcases List.mem_cons.mp hread with rfl | hread
    · exact hform "X-Amz" (by simp) hdeclared
    · rcases List.mem_cons.mp hread with rfl | hread
      · exact hform "X-Goog" (by simp) hdeclared
      · obtain rfl := List.mem_singleton.mp hread
        obtain ⟨time, hread, heq⟩ | hlate := declaredUnix_read hdeclared
        · exact .inr (.inl ⟨time, hmem _ (by simp) time hread, heq⟩)
        · exact .inr (.inr hlate)

theorem mem_declared {query : Option (List (String × String))} {x : ℤ} (h : x ∈ declared query) :
    x ∈ early query ∨ (∃ time ∈ expiries query, (time : ℤ) = x) ∨ maxTime < x := by
  obtain ⟨form, hform, rfl⟩ := List.mem_map.mp h
  obtain hearly | hread := declared_read hform
  · exact .inl (List.mem_map.mpr ⟨form, List.mem_filter.mpr ⟨hform, decide_eq_true hearly⟩, rfl⟩)
  · exact .inr hread

theorem early_subset {query : Option (List (String × String))} {x : ℤ} (h : x ∈ early query) :
    x ∈ declared query := by
  obtain ⟨form, hform, rfl⟩ := List.mem_map.mp h
  exact List.mem_map.mpr ⟨form, (List.mem_filter.mp hform).1, rfl⟩

theorem SourceChunkGrant.le (grant : SourceChunkGrant queryPairs) {time : ℕ}
    (h : time ∈ expiries (queryPairs grant.url)) :
    grant.expiresAt ≤ time := by
  obtain ⟨upperBound, hbounded⟩ := grant.bounded
  rw [hbounded]
  exact Int.ofNat_le.mp (foldl_min_le.mpr (.inr ⟨time, h, Int.le_refl _⟩))

theorem attached_iff {query : Option (List (String × String))}
    (query' : Option (List (String × String))) (now : ℕ)
    {bound expiresAt : ℕ} (hle : expiresAt ≤ bound) (hmax : bound ≤ maxTime)
    (hsource : ∀ time ∈ expiries query, expiresAt ≤ time) :
    ((isoAt (boundedGrantExpiry query' expiresAt)).instant ≤ bound ∧
      (∀ x ∈ declared query ++ declared query',
        (isoAt (boundedGrantExpiry query' expiresAt)).instant ≤ x) ∧
      (now : ℤ) < (isoAt (boundedGrantExpiry query' expiresAt)).instant) ↔
    now < expiresAt / milliNanos * milliNanos ∧ (∀ time ∈ expiries query', now < time) ∧
      ∀ x ∈ early query ++ early query',
        (expiresAt / milliNanos * milliNanos : ℕ) ≤ x ∨
          ∃ time ∈ expiries query', (time : ℤ) ≤ x := by
  have hinstant : (isoAt (boundedGrantExpiry query' expiresAt)).instant =
      ((expiries query').foldl min (expiresAt / milliNanos * milliNanos) : ℕ) := by
    rw [instant_isoAt, boundedGrantExpiry, floor_foldl_min fun time htime => expiries_exact htime]
  have hfloor : expiresAt / milliNanos * milliNanos ≤ expiresAt := Nat.div_mul_le_self _ _
  have hbound : (((expiries query').foldl min (expiresAt / milliNanos * milliNanos) : ℕ) : ℤ) ≤
      expiresAt :=
    foldl_min_le.mpr (.inl (Int.ofNat_le.mpr hfloor))
  rw [hinstant, Int.ofNat_lt, lt_foldl_min]
  constructor
  · rintro ⟨-, hdeclared, hnow, hlater⟩
    refine ⟨hnow, hlater, fun x hx => foldl_min_le.mp (hdeclared x ?_)⟩
    rcases List.mem_append.mp hx with hx | hx
    · exact List.mem_append_left _ (early_subset hx)
    · exact List.mem_append_right _ (early_subset hx)
  · rintro ⟨hnow, hlater, hearly⟩
    refine ⟨Int.le_trans hbound (Int.ofNat_le.mpr hle), fun x hx => ?_, hnow, hlater⟩
    have hlate : (maxTime : ℤ) < x →
        (((expiries query').foldl min (expiresAt / milliNanos * milliNanos) : ℕ) : ℤ) ≤ x :=
      fun hlate =>
        Int.le_trans hbound (Int.le_trans (Int.ofNat_le.mpr (Nat.le_trans hle hmax))
          (Int.le_of_lt hlate))
    rcases List.mem_append.mp hx with hx | hx
    · obtain hx | ⟨time, htime, rfl⟩ | hx := mem_declared hx
      · exact foldl_min_le.mpr (hearly x (List.mem_append_left _ hx))
      · exact Int.le_trans hbound (Int.ofNat_le.mpr (hsource time htime))
      · exact hlate hx
    · obtain hx | ⟨time, htime, rfl⟩ | hx := mem_declared hx
      · exact foldl_min_le.mpr (hearly x (List.mem_append_right _ hx))
      · exact foldl_min_le.mpr (.inr ⟨time, htime, Int.le_refl _⟩)
      · exact hlate hx

theorem lasts_iff {input : DestinationRouteInput queryPairs} {destUrl : String}
    {grant : SourceChunkGrant queryPairs}
    (hmax : input.now + input.lifetime ≤ maxTime)
    (hattached : ¬ min (input.now + input.lifetime) grant.expiresAt ≤ input.attached)
    {time : IsoTime}
    (htime : isoAt (boundedGrantExpiry (queryPairs destUrl)
      (min (input.now + input.lifetime) grant.expiresAt)) = time) :
    Lasts input destUrl grant ↔
      time.instant ≤ (input.now + input.lifetime : ℕ) ∧
        (∀ x ∈ declared (queryPairs grant.url) ++ declared (queryPairs destUrl), time.instant ≤ x) ∧
        (input.now : ℤ) < time.instant := by
  have hiff := attached_iff (queryPairs destUrl) input.now
    (Nat.min_le_left (input.now + input.lifetime) grant.expiresAt) hmax
    (fun time htime => Nat.le_trans (Nat.min_le_right _ _) (grant.le htime))
  rw [htime] at hiff
  rw [hiff]
  exact or_iff_right hattached

theorem tryJoin_none {input : DestinationRouteInput queryPairs} :
    input.tryJoin = none ↔
      input.sourceGrant = none ∧
        ¬(input.finishes = .first ∧ ∃ error, input.destUrl = .error error) := by
  unfold DestinationRouteInput.tryJoin
  rcases input.destUrl with error | destUrl <;> rcases input.finishes with _ | _ | _ <;>
    rcases input.sourceGrant with _ | error' | grant <;> simp

theorem tryJoin_ok {input : DestinationRouteInput queryPairs} {destUrl : String}
    {grant : SourceChunkGrant queryPairs} :
    input.tryJoin = some (.ok (destUrl, grant)) ↔
      input.destUrl = .ok destUrl ∧ input.sourceGrant = some (.ok grant) := by
  unfold DestinationRouteInput.tryJoin
  rcases input.destUrl with error | destUrl <;> rcases input.finishes with _ | _ | _ <;>
    rcases input.sourceGrant with _ | error' | grant <;> simp

/-- The expiry of a route is sound exactly where the lifetimes can be added and the grants last. -/
theorem expiry_sound_iff (input : DestinationRouteInput queryPairs) : ExpirySound input ↔
    GrantsLast input := by
  unfold ExpirySound GrantsLast DestinationRouteInput.signDestinationRoute
  cases hbound : checkedAdd input.now input.lifetime with
  | none => simp
  | some bound =>
    obtain ⟨rfl, hmax⟩ := checkedAdd_eq hbound
    cases hkey : input.objectKey with
    | none => simp
    | some key =>
      have hnone := @tryJoin_none _ input
      have hok := @tryJoin_ok _ input
      have hbegun : input.tryJoin ≠ none → input.sourceGrant = none →
          input.finishes = .first ∧ ∃ error, input.destUrl = .error error := by
        intro hjoin hgrant
        by_contra hover
        exact hjoin (hnone.mpr ⟨hgrant, hover⟩)
      cases hjoin : input.tryJoin with
      | none =>
        obtain ⟨hgrant, hover⟩ := hnone.mp hjoin
        simp [hgrant, hover]
      | some joined =>
        rw [hjoin] at hbegun
        cases joined with
        | error error =>
          have hrefused : ∀ destUrl grant, input.destUrl = .ok destUrl →
              input.sourceGrant ≠ some (.ok grant) := by
            intro destUrl grant hdest hgrant
            cases hjoin.symm.trans (hok.mpr ⟨hdest, hgrant⟩)
          refine iff_of_true ⟨_, rfl, fun route hroute => nomatch hroute⟩
            ⟨Option.some_ne_none _, fun _ _ => ?_⟩
          exact ⟨hbegun (Option.some_ne_none _), fun destUrl grant hdest hgrant =>
            absurd hgrant (hrefused _ _ hdest)⟩
        | ok joined =>
          obtain ⟨destUrl, grant⟩ := joined
          obtain ⟨hdest, hgrant⟩ := hok.mp hjoin
          by_cases hexpired : min (input.now + input.lifetime) grant.expiresAt ≤ input.attached
          · have hlasts : Lasts input destUrl grant := .inl hexpired
            simp [hdest, hgrant, min_le_iff.mp hexpired, hlasts]
          · generalize htime :
              isoAt (boundedGrantExpiry (queryPairs destUrl)
                (min (input.now + input.lifetime) grant.expiresAt)) = time
            have hiff := lasts_iff hmax hexpired htime
            simp [hdest, hgrant, mt min_le_iff.mpr hexpired, htime, hiff]

def samplePairs : QueryPairs := fun url =>
  if url = "https://hub.example/part?Expires=1" then some [("Expires", "1")]
  else if url = "https://s3.example/part?X-Amz-Date=19691231T235959Z&X-Amz-Expires=1" then
    some [("X-Amz-Date", "19691231T235959Z"), ("X-Amz-Expires", "1")]
  else if url = "https://source.example/file" then some []
  else none

def sampleInput (expiresIn : ℕ) (destUrl : String) : DestinationRouteInput samplePairs :=
  ⟨1000 * secondNanos, expiresIn, some "key", .ok destUrl, .first,
    .signed (.ok "https://source.example/file") (1000 * secondNanos),
    1000 * secondNanos⟩

/-- A URL that was issued before and has expired; one of a date before 1970, whose expiry is not
read; and a lifetime that overflows the clock. -/
theorem expiry_wrong :
    (sampleInput 0 "https://hub.example/part?Expires=1").signDestinationRoute =
        some (.ok ⟨"https://source.example/file", "https://hub.example/part?Expires=1",
          ⟨1970, 1, 1, 0, 0, 1, 0⟩⟩) ∧
      (sampleInput 0 "https://s3.example/part?X-Amz-Date=19691231T235959Z&X-Amz-Expires=1").signDestinationRoute =
        some (.ok ⟨"https://source.example/file",
          "https://s3.example/part?X-Amz-Date=19691231T235959Z&X-Amz-Expires=1",
          ⟨1970, 1, 1, 1, 16, 40, 0⟩⟩) ∧
      declared (samplePairs "https://s3.example/part?X-Amz-Date=19691231T235959Z&X-Amz-Expires=1") =
        [0] ∧
      (sampleInput
        ((2 ^ 64 - 1) * secondNanos) "https://source.example/file").signDestinationRoute =
          none := by
  decide +kernel

end Beam.Rust.Expiry
