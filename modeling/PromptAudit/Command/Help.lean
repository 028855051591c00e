import PromptAudit.Command.Complaint

namespace PromptAudit.Command

namespace Page

def usageLines : Page → List String
  | program => ["usage: promptlint [-h] [--version] \x7bcheck,rules\x7d ..."]
  | check => [
      "usage: promptlint check [-h] [--max-tokens MAX_TOKENS] [--format \x7btext,json\x7d]",
      "                        [--only ONLY] [--except EXCLUDE] [--verbose]",
      "                        paths [paths ...]"]
  | rules => ["usage: promptlint rules [-h]"]

def detailLines : Page → List String
  | program => [
      "",
      "Static analysis of prompt-engineering code — finds risky LLM prompts and",
      "client calls in Ruby.",
      "",
      "positional arguments:",
      "  \x7bcheck,rules\x7d",
      "    check        Analyze Ruby files and directories",
      "    rules        List available rules",
      "",
      "options:",
      "  -h, --help     show this help message and exit",
      "  --version      Print version and exit"]
  | check => [
      "",
      "positional arguments:",
      "  paths                 Files or directories to analyze",
      "",
      "options:",
      "  -h, --help            show this help message and exit",
      "  --max-tokens MAX_TOKENS",
      "                        Token limit for prompt text (default: from settings)",
      "  --format \x7btext,json\x7d, -f \x7btext,json\x7d",
      "                        Output format (default: text)",
      "  --only ONLY           Comma-separated rule ids to run exclusively",
      "  --except EXCLUDE      Comma-separated rule ids to skip",
      "  --verbose, -v         Enable verbose output"]
  | rules => [
      "",
      "options:",
      "  -h, --help  show this help message and exit"]

def printed (lines : List String) : Text := lines.flatMap fun line => line.toList ++ ['\n']

def usage (p : Page) : Text := printed p.usageLines

def help (p : Page) : Text := printed (p.usageLines ++ p.detailLines)

end Page

/-- A complaint below the usage that it offends against. -/
def misuse (p : Page) (c : Complaint) : Text :=
  p.usage ++ p.title ++ ": error: ".toList ++ c.message ++ ['\n']

end PromptAudit.Command
