/-!
# The configuration template

A configuration file with every key at its default value and a comment on each.
-/

namespace Semicolon.Command

/-- The text of the template. -/
def template : String := "# autosemi configuration

[processing]
# How lines are dispatched to the classifier:
#   \"sequential\" - single-threaded pass
#   \"parallel\"   - always use the worker pool
#   \"adaptive\"   - parallel once the input reaches parallel_threshold_lines
execution_mode = \"adaptive\"

[output]
# Default output format when --format is not given: \"text\" or \"json\"
default_format = \"text\"

# Pretty print JSON output
pretty_json = true

[performance]
# Line count at which adaptive mode switches to parallel processing
parallel_threshold_lines = 10000

# Lines handed to a worker at a time
chunk_lines = 4096

# Number of worker threads (0 = one per CPU)
worker_threads = 0
"

end Semicolon.Command
