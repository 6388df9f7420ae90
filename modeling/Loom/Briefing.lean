/-!
# The Briefing

A folder of documents that brief a coding assistant: what the folder is for, who
does what, how to pair with the assistant in an editor, two tasks, and a script
that sets up a remote.
-/

namespace Loom.Briefing

/-- What the folder is for. `time` is when it was written. -/
def readmeText (time : String) : String :=
  "# Codex Context Port for Loom/Loomweaver

Generated: " ++ time ++
  "

\x23# Vision
Pair OpenAI **Codex** with this repo inside VS Code so natural language tasks become auditable " ++
  "branches and PRs. Codex reads/edit files you open, runs commands you approve, and can move " ++
  "work between local and cloud.

\x23# What’s inside
- `TEAM_LOOM_CODEX.md` — roles and working norms
- `SPEC-CODEX-000.md` — install, sign-in, GitHub linking, usage patterns
- `tasks/001_overlay_flags.md` — SPEC-003 tasks for overlay flags
- `tasks/002_receipts_lineage.md` — SPEC-003 receipts enrichment tasks
- `scripts/setup_github_remote.sh` — safe remote add/push

\x23# Quickstart
1. Install the Codex IDE extension in VS Code and sign in with ChatGPT (see SPEC-CODEX-000).
2. Connect your GitHub account when prompted.
3. Open this repo, create a feature branch, and run the tasks in `tasks/`.
"

def teamText : String :=
  "# Team Loom — Codex Roles

- **You (Architect/Founder)** — sets direction, approves merges.
- **Nova (Mentor)** — keeps philosophy and invariants aligned.
- **SA (Software Architect GPT)** — executes specs, writes patches, fixes CI.
- **Codex** — hands-on coding partner inside VS Code: reads open files, proposes edits, runs " ++
  "commands with your consent, and prepares diffs.

\x23# Working norms
- One small task at a time; branch + PR per task.
- Keep SPEC-002 green; SPEC-003 lands behind flags.
- Always review Codex diffs; receipts remain source of truth.
"

def pairingText : String :=
  "# SPEC-CODEX-000 — IDE Pairing (Codex in VS Code)

\x23# Background
We want AI-native pairing for SPEC-003 overlays without destabilizing SPEC-002.

\x23# Requirements
- Install Codex IDE extension in VS Code.
- Sign in with ChatGPT; no manual API keys.
- Link GitHub for repo ops (branches/PRs).
- Keep actions auditable via branches and commits.

\x23# Install & Sign In (VS Code)
1) **Install the extension**
   - Use the official VSIX via VS Code: **Command Palette → “Extensions: Install from VSIX…”** " ++
  "and select the file.
2) **Sign in with ChatGPT**
   - Use the extension’s sign-in flow; it opens your browser to ChatGPT. Approve access.
3) **Connect GitHub**
   - When prompted, link your GitHub account so Codex can manage branches/PRs.

\x23# Usage patterns (repo with spaces in path)
- Open the repo folder. Select files you want Codex to read.
- Ask Codex in the IDE panel to perform scoped tasks: “Add --overlay flags to loom_cli”, “Write " ++
  "overlay_core_test.py”.
- Approve edits; inspect diffs; commit to a feature branch.

\x23# Guardrails
- Always run tests locally (e.g., `pytest -q -k overlay_core_test`) before merging.
- Require PR review on `main`.
"

def flagsTaskText : String :=
  "# Task 001 — Overlay Flags (SPEC-003)

**Goal:** Add overlay flags to the main CLI without breaking baseline.

Steps for Codex:
1. Open `src/loom_cli.py`, `src/compiler.py`.
2. Implement `--overlay`, `--no-unknown-verbs`, `--enforce-capabilities`.
3. Call the compile-time expander (from `src/overlays.py`) before runtime.
4. Update receipts to include overlay lineage fields (`rawVerb`, `mappedVerb`, `overlayDomain`, " ++
  "`overlayVersion`, `capabilityCheck`) without changing the frozen outer schema.
5. Add/adjust tests (focused, non-invasive).
"

def receiptsTaskText : String :=
  "# Task 002 — Receipts Lineage (SPEC-003)

**Goal:** Ensure every step in receipts records overlay lineage, even when overlays are not used.

Steps for Codex:
1. Inspect receipt construction in interpreter/VM.
2. Plumb lineage from the expander into the per-step entries.
3. Add a small test asserting lineage presence and values for Query/Summarize/Report.
"

def remoteScript : String :=
  "#!/usr/bin/env bash
\x23 Idempotent GitHub remote setup. Safe with spaces in path.
set -euo pipefail
ROOT=\"$( cd \"$( dirname \"$\x7bBASH_SOURCE[0]\x7d\" )/..\" && pwd )\"
cd \"$ROOT/..\"

if git rev-parse --git-dir >/dev/null 2>&1; then
  echo \"Git repo detected.\"
else
  echo \"Initializing git repo...\"
  git init
  git add .
  git commit -m \"init\"
fi

if git remote get-url origin >/dev/null 2>&1; then
  echo \"Remote 'origin' already set: $(git remote get-url origin)\"
else
  echo \"No 'origin' remote. To set it:\"
  echo \"  git remote add origin https://github.com/<your-username>/<your-repo>.git\"
  echo \"  git branch -M main\"
  echo \"  git push -u origin main\"
fi
"

/-- The documents by path, written at `time`. -/
def briefing (time : String) : List (String × String) :=
  [("README_CODEX.md", readmeText time), ("TEAM_LOOM_CODEX.md", teamText),
    ("SPEC-CODEX-000.md", pairingText), ("tasks/001_overlay_flags.md", flagsTaskText),
    ("tasks/002_receipts_lineage.md", receiptsTaskText),
    ("scripts/setup_github_remote.sh", remoteScript)]

end Loom.Briefing
