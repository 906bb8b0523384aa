/-!
# An example script

An annotated script to start from. It uses every kind of statement, and there is nothing to find in it.

## Main definitions

* `WorkflowLint.exampleScript` — the script.
-/

set_option autoImplicit false

namespace WorkflowLint

/-- The lines of the example script. -/
def exampleLines : List String :=
  ["# JulietScript example: a reviewed patch-series workflow.",
    "# Lines starting with '#' are comments.",
    "",
    "# Global defaults. A file should contain at most one juliet block.",
    "juliet \x7b",
    "  engine = codex;",
    "\x7d",
    "",
    "# Policies are named blocks of reusable instruction text.",
    "policy PreflightChecklist = \"\"\"",
    "Read the brief, list open questions and confirm the test command",
    "before writing any code.",
    "\"\"\";",
    "",
    "policy FailureTriage = \"Record the root cause, then retry once.\";",
    "",
    "# A rubric scores variants. Points must be positive.",
    "rubric PatchRubric \x7b",
    "  criterion \"Correctness\" points 5 means \"All tests pass.\";",
    "  criterion \"Readability\" points 3 means \"\"\"Small, focused diffs.\"\"\";",
    "  criterion \"Safety\" points 2;",
    "  tiebreakers [\"Correctness\", \"Safety\"];",
    "\x7d",
    "",
    "# A cadence branches into variants, runs sprints, then prunes.",
    "# 'variants' and 'sprints' are required.",
    "cadence PatchLoop \x7b",
    "  engine = \"codex\";",
    "  variants = 3;",
    "  sprints = 2;",
    "  compare using PatchRubric;",
    "  keep best 1;",
    "\x7d",
    "",
    "# Artifacts can be seeded from files on disk...",
    "create ProjectBrief from julietArtifactSourceFiles [",
    "  \"docs/brief.md\",",
    "  \"docs/architecture.md\"",
    "];",
    "",
    "# ...or produced from a prompt, using earlier artifacts as input.",
    "create PatchSeries from juliet \"Produce a reviewed patch series for the brief.\"",
    "using [ProjectBrief]",
    "with \x7b",
    "  preflight = PreflightChecklist;",
    "  failureTriage = FailureTriage;",
    "  cadence = PatchLoop;",
    "  rubric = PatchRubric;",
    "\x7d;",
    "",
    "# Add a criterion to an existing artifact's rubric.",
    "extend PatchSeries.rubric with \"Penalize changes to public APIs.\";",
    "",
    "halt \"Stop once PatchSeries has been accepted.\";"]

/-- The example script. -/
def exampleScript : String := String.join (exampleLines.map fun l => l ++ "\n")

end WorkflowLint
