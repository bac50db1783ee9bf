import BraveRotator.Config.FromEnv
import BraveRotator.Lib.Distinct
import BraveRotator.Pool.Step

namespace BraveRotator

open Distinct

namespace Config

/-- What stands at a position of `BRAVE_MONTHLY_LIMITS`. -/
inductive Written where
  /-- nothing, blank or `detect` -/
  | detect
  | number (n : Nat)
  | odd
  deriving DecidableEq

def written (entry : Option (List Char)) : Written :=
  match entry.map Text.trim with
  | none => .detect
  | some s =>
    if s.isEmpty || Text.eqIgnoreAsciiCase s "detect".toList then .detect
    else match (Text.parseUnsigned u64Max s).toOption with
      | some n => .number n.val
      | none => .odd

def Written.cap : Written → Option Nat
  | .number n => some n
  | _ => none

/-- The cap is the number written, and there is none only where `detect` or nothing is written. -/
def Written.Gives : Written → Option Nat → Prop
  | .detect, cap => cap = none
  | .number n, cap => cap = some n
  | .odd, _ => False

section Entries

variable (env : Env)

/-- The nonempty entries of `BRAVE_API_KEYS`, duplicates included. -/
def keyEntries : List String :=
  (((splitKeys ((firstEnv env ["BRAVE_API_KEYS", "BRAVE_KEYS"]).getD "").toList).map
    Text.trim).filter (!·.isEmpty)).map String.ofList

def limitEntries : List (List Char) :=
  ((env "BRAVE_MONTHLY_LIMITS").map fun raw => raw.toList.splitOnP (· = ',')).getD []

/-- Each key has the cap that is written at the position of its first occurrence. -/
def CapsLand (p : Pool) : Prop :=
  ∀ (i : Nat) (k : KeyState), p.keys[i]? = some k → ∃ pos, FirstAt (keyEntries env) pos k.token ∧
    (written (limitEntries env)[pos]?).Gives k.monthlyCapOverride

/-- Where a key occurs first, something readable is written; and after duplicates, the same is written
    at the number of distinct keys before it. -/
def Aligned : Prop :=
  ∀ pos t, FirstAt (keyEntries env) pos t →
    written (limitEntries env)[pos]? ≠ .odd ∧
      (rank (keyEntries env) pos < pos →
        (written (limitEntries env)[rank (keyEntries env) pos]?).cap =
          (written (limitEntries env)[pos]?).cap)

end Entries

theorem Written.gives_cap {w : Written} {cap : Option Nat} :
    w.Gives cap ↔ w ≠ .odd ∧ cap = w.cap := by
  cases w <;> simp [Gives, Written.cap]

theorem parseLimit_eq (s : List Char) : parseLimit s = (written (some s)).cap := by
  unfold parseLimit written
  simp only [Option.map_some]
  split
  · rfl
  · cases (Text.parseUnsigned u64Max (Text.trim s)).toOption <;> rfl

theorem addKey_foldl (parts : List (List Char)) (l : List String) (n : Nat) :
    (parts.foldl addKey (l.eraseDups, n)).1 =
      (l ++ ((parts.map Text.trim).filter (!·.isEmpty)).map String.ofList).eraseDups := by
  induction parts generalizing l n with
  | nil => rw [List.map_nil, List.filter_nil, List.map_nil, List.append_nil, List.foldl_nil]
  | cons part parts ih =>
    rw [List.foldl_cons, List.map_cons, List.filter_cons]
    by_cases blank : (Text.trim part).isEmpty = true
    · have skipped : addKey (l.eraseDups, n) part = (l.eraseDups, n) := if_pos blank
      rw [skipped, ih, if_neg (by rw [blank]; exact Bool.false_ne_true)]
    · have some : (!(Text.trim part).isEmpty) = true := by simpa using blank
      have next := ih (l ++ [String.ofList (Text.trim part)])
      rw [eraseDups_concat] at next
      rw [if_pos some, List.map_cons, List.append_cons]
      by_cases known : String.ofList (Text.trim part) ∈ l
      · have counted : addKey (l.eraseDups, n) part = (l.eraseDups, n + 1) := by
          unfold addKey
          simp only
          rw [if_neg blank, if_pos (by simpa using known)]
        rw [if_pos known] at next
        rw [counted, next]
      · have added : addKey (l.eraseDups, n) part =
            (l.eraseDups ++ [String.ofList (Text.trim part)], n) := by
          unfold addKey
          simp only
          rw [if_neg blank, if_neg (by simpa using known)]
        rw [if_neg known] at next
        rw [added, next]

/-- The keys are the distinct entries, and the limits are read off theirs. -/
theorem fromEnv_lists {host : EnvHost} {env : Env} {cfg : Config} (ok : fromEnv host env = .ok cfg) :
    cfg.keys = (keyEntries env).eraseDups ∧ cfg.monthlyLimits =
      (((env "BRAVE_MONTHLY_LIMITS").filter (!isBlank ·)).map parseLimits).getD [] := by
  obtain ⟨keys, -, limits⟩ := fromEnv_ok ok
  rw [keys, limits]
  exact ⟨addKey_foldl _ [] 0, rfl⟩

theorem written_of_blank {raw : String} (blank : isBlank raw = true) (i : Nat) :
    written (raw.toList.splitOnP (· = ','))[i]? = .detect := by
  have trimmed : Text.trim raw.toList = [] := List.isEmpty_iff.mp blank
  have white := Text.isWhitespace_of_trim_nil trimmed
  have single : raw.toList.splitOnP (· = ',') = [raw.toList] := by
    apply List.splitOnP_eq_singleton
    intro c member
    rw [decide_eq_false_iff_not]
    intro comma
    have space := white c member
    rw [comma] at space
    exact absurd space (by decide)
  rw [single]
  cases i with
  | zero =>
    unfold written
    simp only [List.getElem?_cons_zero, Option.map_some, trimmed]
    rfl
  | succ i => rfl

theorem cap_eq {host : EnvHost} {env : Env} {cfg : Config} (ok : fromEnv host env = .ok cfg) (i : Nat) :
    (cfg.monthlyLimits[i]?).join = (written (limitEntries env)[i]?).cap := by
  rw [(fromEnv_lists ok).2, limitEntries]
  cases env "BRAVE_MONTHLY_LIMITS" with
  | none => rfl
  | some raw =>
    by_cases blank : isBlank raw = true
    · rw [Option.filter_some, if_neg (by rw [blank]; exact Bool.false_ne_true)]
      have detect := written_of_blank blank i
      simp only [Option.map_some, Option.getD_some]
      rw [detect]
      rfl
    · rw [Option.filter_some, if_pos (by simpa using blank)]
      simp only [Option.map_some, Option.getD_some, parseLimits, List.getElem?_map]
      cases (raw.toList.splitOnP (· = ','))[i]? with
      | none => rfl
      | some entry => exact parseLimit_eq entry

/-- The key of an index stands first where as many distinct entries stand before it. -/
theorem pool_key_iff {host : EnvHost} {env : Env} {cfg : Config} (ok : fromEnv host env = .ok cfg)
    (clock : Host) (i : Nat) (t : String) :
    (∃ k, (cfg.pool clock).keys[i]? = some k ∧ k.token = t) ↔
      ∃ pos, FirstAt (keyEntries env) pos t ∧ rank (keyEntries env) pos = i := by
  rw [← getElem?_eraseDups_iff, ← (fromEnv_lists ok).1]
  unfold pool Pool.new
  rw [List.getElem?_mapIdx]
  cases cfg.keys[i]? with
  | none => simp
  | some token => simp [KeyState.new]

theorem pool_cap {host : EnvHost} {env : Env} {cfg : Config} (ok : fromEnv host env = .ok cfg)
    (clock : Host) {i : Nat} {k : KeyState} (here : (cfg.pool clock).keys[i]? = some k) :
    k.monthlyCapOverride = (written (limitEntries env)[i]?).cap := by
  obtain ⟨token, rfl⟩ := Pool.new_key clock cfg.keys _ here
  exact cap_eq ok i

theorem aligned_of_capsLand {host : EnvHost} {env : Env} {cfg : Config}
    (ok : fromEnv host env = .ok cfg) {clock : Host} (land : CapsLand env (cfg.pool clock)) :
    Aligned env := by
  intro pos t first
  obtain ⟨k, here, token⟩ := (pool_key_iff ok clock _ t).mpr ⟨pos, first, rfl⟩
  obtain ⟨pos', first', gives⟩ := land _ k here
  rw [token] at first'
  have same := first'.unique first
  rw [same, Written.gives_cap, pool_cap ok clock here] at gives
  exact ⟨gives.1, fun _ => gives.2⟩

theorem capsLand_of_aligned {host : EnvHost} {env : Env} {cfg : Config}
    (ok : fromEnv host env = .ok cfg) {clock : Host} (aligned : Aligned env) :
    CapsLand env (cfg.pool clock) := by
  intro i k here
  obtain ⟨pos, first, index⟩ := (pool_key_iff ok clock i k.token).mp ⟨k, here, rfl⟩
  refine ⟨pos, first, ?_⟩
  obtain ⟨readable, same⟩ := aligned pos k.token first
  rw [index] at same
  rw [Written.gives_cap, pool_cap ok clock here]
  refine ⟨readable, ?_⟩
  by_cases shifted : i < pos
  · exact same shifted
  · have le := rank_le (keyEntries env) pos
    have one : i = pos := by omega
    rw [one]

/-- Caps land on the keys they were written for exactly when the two lists are aligned. -/
theorem caps_land_iff (host : EnvHost) (env : Env) (cfg : Config) (clock : Host)
    (ok : fromEnv host env = .ok cfg) : CapsLand env (cfg.pool clock) ↔ Aligned env :=
  ⟨aligned_of_capsLand ok, capsLand_of_aligned ok⟩

/-- Addresses and URLs enough to start with. -/
def localHost : EnvHost where
  parseSocketAddr _ := .ok (.v4 0 8080)
  parseUri _ := .ok { scheme := some "https", authority := some "api.search.brave.com" }
  debug raw := raw

/-- A clock started at the epoch, without formatters. -/
def epoch : Host where
  bootTime := 0
  formatDuration _ := ""
  formatRfc3339Seconds _ := ""

def envOf (keys limits : String) : Env
  | "BRAVE_API_KEYS" => some keys
  | "BRAVE_MONTHLY_LIMITS" => some limits
  | _ => none

theorem first_cap_lands :
    ∃ cfg, fromEnv localHost (envOf "first,first second" "1000") = .ok cfg ∧
      CapsLand (envOf "first,first second" "1000") (cfg.pool epoch) := by
  obtain ⟨cfg, ok⟩ := ok_of_toBool
    (by decide : (fromEnv localHost (envOf "first,first second" "1000")).toBool = true)
  have entries : keyEntries (envOf "first,first second" "1000") = ["first", "first", "second"] := by
    decide
  have limits : limitEntries (envOf "first,first second" "1000") = ["1000".toList] := by decide
  refine ⟨cfg, ok, (caps_land_iff _ _ cfg epoch ok).mpr ?_⟩
  unfold Aligned
  rw [entries, limits]
  intro pos t first
  have lt : pos < 3 := first.lt
  have cases : pos = 0 ∨ pos = 1 ∨ pos = 2 := by omega
  rcases cases with rfl | rfl | rfl
  · decide
  · decide
  · decide

/-- The second key stands at the third position, and has the cap that is written at the second. -/
theorem cap_on_wrong_key :
    ∃ cfg, fromEnv localHost (envOf "first,first,second" "100,200,300") = .ok cfg ∧
      ¬ CapsLand (envOf "first,first,second" "100,200,300") (cfg.pool epoch) := by
  obtain ⟨cfg, ok⟩ := ok_of_toBool
    (by decide : (fromEnv localHost (envOf "first,first,second" "100,200,300")).toBool = true)
  refine ⟨cfg, ok, ?_⟩
  intro land
  have first : FirstAt (keyEntries (envOf "first,first,second" "100,200,300")) 2 "second" :=
    ⟨by decide, by decide⟩
  have same := (aligned_of_capsLand ok land 2 "second" first).2 (by decide)
  exact absurd same (by decide)

end Config

end BraveRotator
