import HttpRoutes.Router.Matcher

/-!
# Published matchers

A handle holds the matcher that requests are matched with.  A matcher is
published as a whole, in place of the one that is held, and only after it has
been built.  What has been loaded before stays the matcher that it was.
-/

namespace HttpRoutes

structure Handle (α : Type) where
  current : Matcher α

namespace Handle

variable {α : Type}

/-- The matcher that is published now. -/
def load (handle : Handle α) : Matcher α := handle.current

/-- Publish a matcher.  The result is the one that it replaces. -/
def swap (table : Matcher α) (handle : Handle α) : Handle α × Logged (Matcher α) :=
  (⟨table⟩,
    ⟨[.matcherPublished table.size handle.current.size], handle.current⟩)

end Handle
end HttpRoutes
