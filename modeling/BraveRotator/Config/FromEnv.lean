import BraveRotator.Model.Config

namespace BraveRotator

namespace Config

theorem ok_of_bind {ε α β : Type} {x : Except ε α} {f : α → Except ε β} {b : β}
    (ok : (x >>= f) = .ok b) : ∃ a, x = .ok a ∧ f a = .ok b := by
  cases x with
  | error e => cases ok
  | ok a => exact ⟨a, rfl, ok⟩

theorem ok_of_toBool {ε α : Type} {x : Except ε α} (ok : x.toBool = true) : ∃ a, x = .ok a := by
  cases x with
  | error e => cases ok
  | ok a => exact ⟨a, rfl⟩

/-- Where the keys, the address to listen on and the limits come from. -/
theorem fromEnv_ok {host : EnvHost} {env : Env} {cfg : Config} (ok : fromEnv host env = .ok cfg) :
    cfg.keys = ((splitKeys ((firstEnv env ["BRAVE_API_KEYS", "BRAVE_KEYS"]).getD "").toList).foldl
        addKey ([], 0)).1 ∧
      parseEnv host env host.parseSocketAddr "LISTEN_ADDR" "0.0.0.0:8080" = .ok cfg.listen ∧
      cfg.monthlyLimits =
        (((env "BRAVE_MONTHLY_LIMITS").filter (!isBlank ·)).map parseLimits).getD [] := by
  unfold fromEnv at ok
  dsimp only at ok
  split at ok
  · cases ok
  obtain ⟨listen, parsed, ok⟩ := ok_of_bind ok
  obtain ⟨uri, -, ok⟩ := ok_of_bind ok
  split at ok
  · cases ok
  obtain ⟨upstreamTimeout, -, ok⟩ := ok_of_bind ok
  obtain ⟨maxQueueWait, -, ok⟩ := ok_of_bind ok
  obtain ⟨reportInterval, -, ok⟩ := ok_of_bind ok
  obtain ⟨windowMargin, -, ok⟩ := ok_of_bind ok
  obtain ⟨defaultRps, -, ok⟩ := ok_of_bind ok
  obtain ⟨maxBodyBytes, -, ok⟩ := ok_of_bind ok
  obtain ⟨workerThreads, -, ok⟩ := ok_of_bind ok
  obtain ⟨accessLog, -, ok⟩ := ok_of_bind ok
  cases ok
  exact ⟨rfl, parsed, rfl⟩

end Config

end BraveRotator
